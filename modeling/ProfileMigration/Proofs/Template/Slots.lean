/-
  ProfileMigration.Proofs.Template.Slots

  Entries of a list that are written into one field tree, each in a slot of its own or of others:

    Writes                  -- entries written one after the other
    LastFor                 -- what the last entry for a slot is written as
    Writes.get?_iff         -- every slot holds that, or what it held before
    KeepsLast               -- what is left of all entries, and when that is all of them
    yields_foldlM_writes    -- a conversion that writes entry by entry
-/
import ProfileMigration.Proofs.Template.Assembling

namespace ProfileMigration

namespace Template

variable {R : FieldMap → String → Field → Prop} {data made : FieldMap} {entry : FieldMap}
  {entries rest : List FieldMap} {slot : String} {f : Field}

/-! ## Writing entries in order -/

/-- Entries written into a field tree one after the other. The relation says for each of them in
    which slot it is written and as what. -/
inductive Writes (R : FieldMap → String → Field → Prop) :
    FieldMap → List FieldMap → FieldMap → Prop where
  | nil (data : FieldMap) : Writes R data [] data
  | cons {data made entry : FieldMap} {rest : List FieldMap} {slot : String} {f : Field}
      (h : R entry slot f) (hrest : Writes R (Keyed.insert slot f data) rest made) :
      Writes R data (entry :: rest) made

theorem Writes.single (h : R entry slot f) : Writes R data [entry] (Keyed.insert slot f data) :=
  .cons h (.nil _)

theorem Writes.append {first more : List FieldMap} {between : FieldMap}
    (h : Writes R data first between) (hmore : Writes R between more made) :
    Writes R data (first ++ more) made := by
  induction h with
  | nil => exact hmore
  | cons hentry _ ih => exact .cons hentry (ih hmore)

/-- Every entry that is written has a slot. -/
theorem Writes.exists_slot (h : Writes R data entries made) :
    ∀ entry ∈ entries, ∃ slot f, R entry slot f := by
  induction h with
  | nil => exact List.forall_mem_nil _
  | cons hentry _ ih => exact List.forall_mem_cons.mpr ⟨⟨_, _, hentry⟩, ih⟩

/-- An entry is written in one slot, as one field. -/
def Determined (R : FieldMap → String → Field → Prop) : Prop :=
  ∀ entry slot slot' f f', R entry slot f → R entry slot' f' → slot = slot' ∧ f = f'

/-- What the last entry for a slot is written as. -/
def LastFor (R : FieldMap → String → Field → Prop) (entries : List FieldMap) (slot : String)
    (f : Field) : Prop :=
  ∃ before entry after, entries = before ++ entry :: after ∧ R entry slot f ∧
    ∀ later ∈ after, ∀ g, ¬ R later slot g

theorem not_lastFor_nil : ¬ LastFor R [] slot f := by
  rintro ⟨before, entry, after, hsplit, -⟩
  exact List.append_ne_nil_of_right_ne_nil before (List.cons_ne_nil entry after) hsplit.symm

theorem lastFor_cons_iff :
    LastFor R (entry :: rest) slot f ↔
      LastFor R rest slot f ∨ R entry slot f ∧ ∀ later ∈ rest, ∀ g, ¬ R later slot g := by
  constructor
  · rintro ⟨before, last, after, hsplit, hlast, hafter⟩
    cases before with
    | nil =>
      obtain ⟨rfl, rfl⟩ := List.cons.inj hsplit
      exact .inr ⟨hlast, hafter⟩
    | cons first before =>
      obtain ⟨rfl, rfl⟩ := List.cons.inj hsplit
      exact .inl ⟨before, last, after, rfl, hlast, hafter⟩
  · rintro (⟨before, last, after, rfl, hlast, hafter⟩ | ⟨hentry, hrest⟩)
    · exact ⟨entry :: before, last, after, rfl, hlast, hafter⟩
    · exact ⟨[], entry, rest, rfl, hentry, hrest⟩

theorem LastFor.mem (h : LastFor R entries slot f) : ∃ entry ∈ entries, R entry slot f := by
  obtain ⟨before, last, after, rfl, hlast, -⟩ := h
  exact ⟨last, List.mem_append_right _ List.mem_cons_self, hlast⟩

/-- A slot that some entry is for has a last one. -/
theorem exists_lastFor (h : ∃ entry ∈ entries, ∃ f, R entry slot f) :
    ∃ f, LastFor R entries slot f := by
  induction entries with
  | nil =>
    obtain ⟨_, hmem, -⟩ := h
    cases hmem
  | cons first rest ih =>
    by_cases hlater : ∃ entry ∈ rest, ∃ f, R entry slot f
    · obtain ⟨f, hf⟩ := ih hlater
      exact ⟨f, lastFor_cons_iff.mpr (.inl hf)⟩
    · -- No later one, so that the entry is the first one
      obtain ⟨entry, hmem, f, hentry⟩ := h
      rcases List.mem_cons.mp hmem with rfl | hmem
      · refine ⟨f, lastFor_cons_iff.mpr (.inr ⟨hentry, fun later hmem g hg => ?_⟩)⟩
        exact hlater ⟨later, hmem, g, hg⟩
      · exact absurd ⟨entry, hmem, f, hentry⟩ hlater

/-- A slot holds what the last entry for it is written as; without such an entry it holds what it
    held before. -/
theorem Writes.get?_iff (hR : Determined R) (h : Writes R data entries made) :
    Keyed.get? slot made = some f ↔ LastFor R entries slot f ∨
      (∀ entry ∈ entries, ∀ g, ¬ R entry slot g) ∧ Keyed.get? slot data = some f := by
  induction h with
  | nil data =>
    rw [or_iff_right not_lastFor_nil, and_iff_right (List.forall_mem_nil _)]
  | @cons data made entry rest own g hentry _ ih =>
    rw [ih, lastFor_cons_iff, or_assoc, List.forall_mem_cons]
    refine or_congr_right ?_
    by_cases hslot : slot = own
    · -- The entry is for this slot: it fills it unless a later one does
      subst hslot
      rw [Keyed.get?_insert_self]
      constructor
      · rintro ⟨hrest, hg⟩
        rw [← Option.some.inj hg]
        exact .inl ⟨hentry, hrest⟩
      · rintro (⟨hf, hrest⟩ | ⟨⟨hnot, -⟩, -⟩)
        · rw [(hR _ _ _ _ _ hentry hf).2]
          exact ⟨hrest, rfl⟩
        · exact absurd hentry (hnot g)
    · -- The entry is for another slot
      have hnot : ∀ f, ¬ R entry slot f := fun f hf => hslot (hR _ _ _ _ _ hf hentry).1
      rw [Keyed.get?_insert_of_ne hslot, or_iff_right fun hboth => hnot f hboth.1,
        and_iff_right hnot]

/-! ## What is left of the entries -/

/-- What is left of entries when each is written in its slot: every entry has one, a slot holds
    what the last entry for it is written as, and nothing is lost exactly if no two entries for
    one slot are written differently. -/
structure KeepsLast (R : FieldMap → String → Field → Prop) (entries : List FieldMap)
    (held : String → Field → Prop) : Prop where
  every : ∀ entry ∈ entries, ∃ slot f, R entry slot f
  last : ∀ slot f, held slot f ↔ LastFor R entries slot f
  complete_iff : (∀ entry ∈ entries, ∀ slot f, R entry slot f → held slot f) ↔
    ∀ entry ∈ entries, ∀ other ∈ entries, ∀ slot f g, R entry slot f → R other slot g → f = g

theorem Writes.keepsLast (hR : Determined R) (h : Writes R [] entries made) :
    KeepsLast R entries fun slot f => Keyed.get? slot made = some f := by
  have hlast : ∀ slot f, Keyed.get? slot made = some f ↔ LastFor R entries slot f := by
    intro slot f
    rw [h.get?_iff hR]
    exact or_iff_left fun hempty => by cases hempty.2
  refine ⟨h.exists_slot, hlast, fun hall entry hentry other hother slot f g hf hg => ?_,
    fun hsame entry hentry slot f hf => ?_⟩
  · have hheld := (hall entry hentry slot f hf).symm.trans (hall other hother slot g hg)
    exact Option.some.inj hheld
  · -- The last entry for the slot is written like this one
    obtain ⟨g, hg⟩ := exists_lastFor ⟨entry, hentry, f, hf⟩
    obtain ⟨last, hmem, hlastR⟩ := hg.mem
    rw [hsame entry hentry last hmem slot f g hf hlastR]
    exact (hlast slot g).mpr hg

theorem KeepsLast.congr {held held' : String → Field → Prop} (h : KeepsLast R entries held)
    (heq : ∀ slot f, held slot f ↔ held' slot f) : KeepsLast R entries held' := by
  have hsame : held = held' := funext fun slot => funext fun f => propext (heq slot f)
  rwa [hsame] at h

/-- Where every step writes its entries into a part of the tree, so do all steps together. -/
theorem yields_foldlM_writes (part : FieldMap → FieldMap) {entriesOf : FieldMap → List FieldMap}
    {step : FieldMap → FieldMap → Converted FieldMap}
    (hstep : ∀ data row,
      Yields (fun made => Writes R (part data) (entriesOf row) (part made)) (step data row))
    (rows : List FieldMap) :
    ∀ data, Yields (fun made => Writes R (part data) (rows.flatMap entriesOf) (part made))
      (rows.foldlM step data) := by
  induction rows with
  | nil => exact fun data => .pure (.nil _)
  | cons row rest ih =>
    intro data
    rw [List.foldlM_cons, List.flatMap_cons]
    exact (hstep data row).bind fun next hnext =>
      (ih next).mono fun made hmade => hnext.append hmade

end Template

end ProfileMigration
