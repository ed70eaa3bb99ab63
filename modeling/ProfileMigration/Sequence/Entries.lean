/-
  ProfileMigration.Sequence.Entries

  Maps as lists of entries, in the order in which the keys came:

    Entries             -- keys with their values; the first entry of a key counts
    Entries.get?        -- the value of a key
    Entries.assign      -- gives a key a value, in place of an earlier one or at the end
    Entries.orInsert    -- the value of a key, which gets one if it has none

  Neither operation gives a key a second entry.

  The maps of `ConversionContext` and `Converted` are of this kind; neither is ever gone through in
  an order of its own.
-/

namespace ProfileMigration

/-- Keys with their values. -/
abbrev Entries (κ α : Type) := List (κ × α)

namespace Entries

variable {κ α : Type} [DecidableEq κ]

/-- The value of a key. -/
def get? (entries : Entries κ α) (key : κ) : Option α := entries.lookup key

/-- Gives a key a value. -/
def assign (key : κ) (value : α) : Entries κ α → Entries κ α
  | [] => [(key, value)]
  | (k, v) :: rest => if k = key then (k, value) :: rest else (k, v) :: assign key value rest

/-- The value of a key, and the entries with it: a key without a value gets the given one. -/
def orInsert (key : κ) (fresh : α) (entries : Entries κ α) : α × Entries κ α :=
  match entries.get? key with
  | some value => (value, entries)
  | none => (fresh, entries.assign key fresh)

variable {key other : κ} {value : α} {entries : Entries κ α}

/-! ## Looking up -/

/-- The value of a key is in an entry. -/
theorem mem_of_get? (h : entries.get? key = some value) : (key, value) ∈ entries := by
  rw [get?] at h
  obtain ⟨before, after, rfl, -⟩ := List.lookup_eq_some_iff.mp h
  simp

theorem isSome_get? : (entries.get? key).isSome ↔ key ∈ entries.map Prod.fst := by
  rw [get?]
  rw [List.lookup_isSome_iff, List.mem_map]
  constructor
  · rintro ⟨entry, hmem, heq⟩
    exact ⟨entry, hmem, (eq_of_beq heq).symm⟩
  · rintro ⟨entry, hmem, rfl⟩
    exact ⟨entry, hmem, beq_self_eq_true _⟩

theorem get?_cons (k : κ) (v : α) (rest : Entries κ α) (key : κ) :
    get? ((k, v) :: rest) key = if key = k then some v else rest.get? key := by
  rw [get?, List.lookup_cons]
  by_cases h : key = k
  · simp [h]
  · rw [if_neg h, beq_false_of_ne h]
    rfl

/-- Where keys are distinct, every entry counts. -/
theorem get?_eq_some_iff (h : (entries.map Prod.fst).Nodup) :
    entries.get? key = some value ↔ (key, value) ∈ entries := by
  refine ⟨mem_of_get?, fun hmem => ?_⟩
  induction entries with
  | nil => cases hmem
  | cons entry rest ih =>
    obtain ⟨k, v⟩ := entry
    rw [List.map_cons, List.nodup_cons] at h
    rw [get?_cons]
    rcases List.mem_cons.mp hmem with heq | hlater
    · rw [(Prod.mk.inj heq).1, (Prod.mk.inj heq).2, if_pos rfl]
    · -- The key of a later entry is not that of the first one
      have hne : key ≠ k := fun hkey => h.1 (hkey ▸ List.mem_map.mpr ⟨_, hlater, rfl⟩)
      rw [if_neg hne]
      exact ih h.2 hlater

/-! ## Assigning -/

theorem get?_assign (key : κ) (value : α) (entries : Entries κ α) (other : κ) :
    (entries.assign key value).get? other =
      if other = key then some value else entries.get? other := by
  induction entries with
  | nil =>
    rw [assign, get?_cons]
  | cons entry rest ih =>
    obtain ⟨k, v⟩ := entry
    rw [assign]
    by_cases hkey : k = key
    · rw [if_pos hkey, get?_cons, get?_cons, hkey]
      by_cases hother : other = key
      · rw [if_pos hother, if_pos hother]
      · rw [if_neg hother, if_neg hother, if_neg hother]
    · rw [if_neg hkey, get?_cons, get?_cons, ih]
      by_cases hother : other = k
      · rw [if_pos hother, if_pos hother, if_neg (hother ▸ hkey)]
      · rw [if_neg hother, if_neg hother]

theorem map_fst_assign (key : κ) (value : α) (entries : Entries κ α) :
    (entries.assign key value).map Prod.fst =
      if key ∈ entries.map Prod.fst then entries.map Prod.fst
      else entries.map Prod.fst ++ [key] := by
  induction entries with
  | nil => simp [assign]
  | cons entry rest ih =>
    obtain ⟨k, v⟩ := entry
    rw [assign]
    by_cases h : k = key
    · simp [h]
    · rw [if_neg h, List.map_cons, ih]
      by_cases hmem : key ∈ rest.map Prod.fst
      · rw [if_pos hmem, if_pos (by simp [hmem]), List.map_cons]
      · rw [if_neg hmem, if_neg (by simpa [Ne.symm h] using hmem), List.map_cons,
          List.cons_append]

theorem prefix_map_fst_assign (key : κ) (value : α) (entries : Entries κ α) :
    entries.map Prod.fst <+: (entries.assign key value).map Prod.fst := by
  rw [map_fst_assign]
  split
  · exact List.prefix_refl _
  · exact List.prefix_append _ _

theorem mem_map_fst_assign : other ∈ (entries.assign key value).map Prod.fst ↔
    other = key ∨ other ∈ entries.map Prod.fst := by
  rw [map_fst_assign]
  by_cases hmem : key ∈ entries.map Prod.fst
  · rw [if_pos hmem]
    refine ⟨.inr, fun h => h.elim (fun heq => ?_) id⟩
    rw [heq]
    exact hmem
  · rw [if_neg hmem, List.mem_append, List.mem_singleton, or_comm]

/-- Keys stay distinct. -/
theorem nodup_assign (h : (entries.map Prod.fst).Nodup) (key : κ) (value : α) :
    ((entries.assign key value).map Prod.fst).Nodup := by
  rw [map_fst_assign]
  by_cases hmem : key ∈ entries.map Prod.fst
  · rw [if_pos hmem]
    exact h
  · rw [if_neg hmem, List.nodup_append]
    refine ⟨h, by simp, fun k hk k' hk' => ?_⟩
    rw [List.mem_singleton.mp hk']
    rintro rfl
    exact hmem hk

/-- An entry is the assigned one or was there before. -/
theorem mem_assign {entry : κ × α} (h : entry ∈ entries.assign key value) :
    entry = (key, value) ∨ entry ∈ entries := by
  induction entries with
  | nil =>
    left
    simpa [assign] using h
  | cons first rest ih =>
    obtain ⟨k, v⟩ := first
    rw [assign] at h
    split at h
    · rename_i hk
      rcases List.mem_cons.mp h with rfl | h
      · exact .inl (by rw [hk])
      · exact .inr (List.mem_cons_of_mem _ h)
    · rcases List.mem_cons.mp h with rfl | h
      · exact .inr (List.mem_cons_self ..)
      · rcases ih h with heq | hmem
        · exact .inl heq
        · exact .inr (List.mem_cons_of_mem _ hmem)

/-- What holds of all values and of the assigned one still holds of all. -/
theorem forall_assign {P : α → Prop} (h : ∀ entry ∈ entries, P entry.2) (hvalue : P value) :
    ∀ entry ∈ entries.assign key value, P entry.2 := by
  intro entry hentry
  rcases mem_assign hentry with rfl | hmem
  · exact hvalue
  · exact h entry hmem

/-! ## Keeping what is there -/

theorem orInsert_fst (key : κ) (fresh : α) (entries : Entries κ α) :
    (entries.orInsert key fresh).1 = (entries.get? key).getD fresh := by
  rw [orInsert]
  cases entries.get? key with
  | none => rfl
  | some value => rfl

/-- Nothing but the value of the key changes, and that only if it had none. -/
theorem get?_orInsert (key : κ) (fresh : α) (entries : Entries κ α) (other : κ) :
    (entries.orInsert key fresh).2.get? other =
      if other = key then some ((entries.get? key).getD fresh) else entries.get? other := by
  rw [orInsert]
  cases hkey : entries.get? key with
  | none => exact get?_assign key fresh entries other
  | some value =>
    by_cases hother : other = key
    · rw [if_pos hother, hother]
      exact hkey
    · rw [if_neg hother]

/-- What holds of all values and of the new one holds of the value that a key has in the end. -/
theorem forall_orInsert {P : α → Prop} (h : ∀ entry ∈ entries, P entry.2) (key : κ) {fresh : α}
    (hfresh : P fresh) : P (entries.orInsert key fresh).1 ∧
      ∀ entry ∈ (entries.orInsert key fresh).2, P entry.2 := by
  rw [orInsert]
  cases hkey : entries.get? key with
  | none => exact ⟨hfresh, forall_assign h hfresh⟩
  | some value => exact ⟨h _ (mem_of_get? hkey), h⟩

theorem nodup_orInsert (h : (entries.map Prod.fst).Nodup) (key : κ) (fresh : α) :
    ((entries.orInsert key fresh).2.map Prod.fst).Nodup := by
  rw [orInsert]
  cases entries.get? key with
  | none => exact nodup_assign h key fresh
  | some value => exact h

end Entries

end ProfileMigration
