/-
  ProfileMigration.Proofs.Legacy.Exchanging

  Definitions in which other texts stand under a name, and what that changes:

    FieldMap.Replaces           -- field trees that differ in values under a name
    FieldMap.Replaces.field?    -- they read alike at every path, up to those values
    FieldMap.Replaces.value?_of_ne -- at a path that ends otherwise both read the same value
    FieldMap.Replaces.value?_or -- at one that does not, the second may read the new value
    FieldMap.Replaces.items     -- and items come one for one
    Legacy.Exchanges            -- texts under a name are exchanged for a given one
    Legacy.replaces_normalizeMembers -- which replaces values of the field tree
-/
import Mathlib.Data.List.Forall2
import ProfileMigration.Proofs.Legacy.Sources

namespace ProfileMigration

/-! ## Trees with other values under a name -/

mutual

/-- A field that stands under a last segment, and the same with a given value in place of some of
    those that stand under a certain last segment. -/
inductive Field.Replaces (name : String) (w : TypedValue) : String → Field → Field → Prop where
  | same (last : String) (f : Field) : Field.Replaces name w last f f
  | value (v : TypedValue) : Field.Replaces name w name (.value v) (.value w)
  | group {last : String} {fields fields' : FieldMap}
      (h : FieldMap.Replaces name w fields fields') :
      Field.Replaces name w last (.group fields) (.group fields')
  | items {last : String} {rows rows' : List FieldMap} (h : Field.RowsReplace name w rows rows') :
      Field.Replaces name w last (.items rows) (.items rows')

/-- Fields under the same names, some of them with the value. -/
inductive FieldMap.Replaces (name : String) (w : TypedValue) : FieldMap → FieldMap → Prop where
  | nil : FieldMap.Replaces name w [] []
  | cons {key : String} {f f' : Field} {rest rest' : FieldMap}
      (h : Field.Replaces name w (Path.leaf key) f f')
      (hrest : FieldMap.Replaces name w rest rest') :
      FieldMap.Replaces name w ((key, f) :: rest) ((key, f') :: rest')

/-- Items one for one. -/
inductive Field.RowsReplace (name : String) (w : TypedValue) :
    List FieldMap → List FieldMap → Prop where
  | nil : Field.RowsReplace name w [] []
  | cons {row row' : FieldMap} {rest rest' : List FieldMap}
      (h : FieldMap.Replaces name w row row') (hrest : Field.RowsReplace name w rest rest') :
      Field.RowsReplace name w (row :: rest) (row' :: rest')

end

variable {name last : String} {w : TypedValue}

theorem FieldMap.Replaces.refl (m : FieldMap) : FieldMap.Replaces name w m m := by
  induction m with
  | nil => exact .nil
  | cons entry rest ih =>
    obtain ⟨key, f⟩ := entry
    exact .cons (.same _ f) ih

namespace Field

variable {f f' : Field}

/-- A value stands in the place of a value. -/
theorem Replaces.exists_value {v : TypedValue} (h : Replaces name w last f (.value v)) :
    ∃ v₀, f = .value v₀ := by
  cases h with
  | same => exact ⟨v, rfl⟩
  | value v₀ => exact ⟨v₀, rfl⟩

theorem Replaces.value? (h : Replaces name w last f f') :
    f'.value? = f.value? ∨ last = name ∧ f.value?.isSome ∧ f'.value? = some w := by
  cases h with
  | same | group | items => exact .inl rfl
  | value v => exact .inr ⟨rfl, rfl, rfl⟩

theorem Replaces.group? (h : Replaces name w last f f') :
    Option.Rel (FieldMap.Replaces name w) f.group? f'.group? := by
  cases h with
  | same =>
    cases f with
    | group fields => exact .some (.refl fields)
    | value | items => exact .none
  | group h => exact .some h
  | value | items => exact .none

theorem RowsReplace.forall₂ : ∀ {rows rows' : List FieldMap}, RowsReplace name w rows rows' →
    List.Forall₂ (FieldMap.Replaces name w) rows rows'
  | _, _, .nil => .nil
  | _, _, .cons h hrest => .cons h hrest.forall₂

theorem Replaces.rows (h : Replaces name w last f f') :
    List.Forall₂ (FieldMap.Replaces name w) f.rows f'.rows := by
  cases h with
  | same => exact List.forall₂_same.mpr fun row _ => .refl row
  | value => exact .nil
  | group h => exact .cons h .nil
  | items h => exact h.forall₂

end Field

namespace FieldMap

variable {m m' : FieldMap}

namespace Replaces

/-! ## Reading -/

theorem get? (key : String) : ∀ {m m' : FieldMap}, Replaces name w m m' →
    Option.Rel (Field.Replaces name w (Path.leaf key)) (Keyed.get? key m) (Keyed.get? key m')
  | _, _, .nil => .none
  | (k, _) :: _, _, .cons h hrest => by
    by_cases hk : k = key
    · subst hk
      rw [Keyed.get?_cons_self, Keyed.get?_cons_self]
      exact .some h
    · rw [Keyed.get?_cons_of_ne hk, Keyed.get?_cons_of_ne hk]
      exact hrest.get? key

theorem groupAt? (h : Replaces name w m m') (key : String) :
    Option.Rel (Replaces name w) (m.groupAt? key) (m'.groupAt? key) := by
  rw [FieldMap.groupAt?, FieldMap.groupAt?]
  have hget := h.get? key
  generalize Keyed.get? key m = f? at hget ⊢
  generalize Keyed.get? key m' = f'? at hget ⊢
  cases hget with
  | none => exact .none
  | some hf => exact hf.group?

/-- What is found first in one list is found first in the other. -/
theorem rel_findSome? {α β : Type} {R : β → β → Prop} {f g : α → Option β} {l : List α}
    (h : ∀ a ∈ l, Option.Rel R (f a) (g a)) : Option.Rel R (l.findSome? f) (l.findSome? g) := by
  induction l with
  | nil => exact .none
  | cons a rest ih =>
    obtain ⟨ha, hrest⟩ := List.forall_mem_cons.mp h
    rw [List.findSome?_cons, List.findSome?_cons]
    generalize f a = b? at ha
    generalize g a = b'? at ha
    cases ha with
    | none => exact ih hrest
    | some hb => exact .some hb

/-- The field at a path is the same, up to values under the name. -/
theorem fieldAt? (segs : List String) (hsegs : Path.IsSegments segs) {m m' : FieldMap}
    (h : Replaces name w m m') :
    Option.Rel (Field.Replaces name w (Path.leaf (Path.joined segs))) (m.fieldAt? segs)
      (m'.fieldAt? segs) := by
  rw [fieldAt?_eq, fieldAt?_eq]
  have hwhole := h.get? (Path.joined segs)
  generalize Keyed.get? (Path.joined segs) m = f? at hwhole ⊢
  generalize Keyed.get? (Path.joined segs) m' = f'? at hwhole ⊢
  cases hwhole with
  | some hf => exact .some hf
  | none =>
    rw [Option.none_or, Option.none_or]
    refine rel_findSome? fun cut hcut => ?_
    obtain ⟨-, htail⟩ := hsegs.of_cut hcut
    have hlength := Path.length_tail_lt_of_mem_cuts hcut
    have hgroup := h.groupAt? (Path.joined cut.1)
    generalize m.groupAt? (Path.joined cut.1) = inner? at hgroup ⊢
    generalize m'.groupAt? (Path.joined cut.1) = inner'? at hgroup ⊢
    cases hgroup with
    | none => exact .none
    | some hinner =>
      -- What is left of the path ends as the whole path does
      have hleaf : Path.leaf (Path.joined segs) = Path.leaf (Path.joined cut.2) := by
        obtain ⟨happ, -, hne⟩ := @Path.of_mem_cuts segs cut.1 cut.2 hcut
        rw [Path.leaf, Path.leaf, Path.segments_joined hsegs, Path.segments_joined htail, ← happ,
          List.getLastD_eq_getLast?, List.getLastD_eq_getLast?,
          List.getLast?_append_of_ne_nil _ hne]
        obtain ⟨s, hs⟩ := Option.ne_none_iff_exists'.mp (mt List.getLast?_eq_none_iff.mp hne)
        rw [hs]
        rfl
      rw [hleaf]
      exact fieldAt? cut.2 htail hinner
termination_by segs.length

theorem field? (h : Replaces name w m m') (path : String) :
    Option.Rel (Field.Replaces name w (Path.leaf path)) (m.field? path) (m'.field? path) := by
  have hfield := fieldAt? (Path.segments path) (Path.isSegments_segments path) h
  rwa [Path.joined_segments] at hfield

/-- At a path under the name, the value may be the new one. -/
theorem value?_or (h : Replaces name w m m') (path : String) :
    m'.value? path = m.value? path ∨
      Path.leaf path = name ∧ (m.value? path).isSome ∧ m'.value? path = some w := by
  rw [FieldMap.value?, FieldMap.value?]
  have hfield := h.field? path
  generalize m.field? path = f? at hfield ⊢
  generalize m'.field? path = f'? at hfield ⊢
  cases hfield with
  | none => exact .inl rfl
  | some hf => exact hf.value?

theorem value?_of_ne (h : Replaces name w m m') {path : String} (hpath : Path.leaf path ≠ name) :
    m'.value? path = m.value? path :=
  (h.value?_or path).resolve_right fun hname => hpath hname.1

theorem items (h : Replaces name w m m') (path : String) :
    List.Forall₂ (Replaces name w) (m.items path) (m'.items path) := by
  rw [items_eq, items_eq]
  have hfield := h.field? path
  generalize m.field? path = f? at hfield ⊢
  generalize m'.field? path = f'? at hfield ⊢
  cases hfield with
  | none => exact .nil
  | some hf => exact hf.rows

theorem keys : ∀ {m m' : FieldMap}, Replaces name w m m' → m'.map Prod.fst = m.map Prod.fst
  | _, _, .nil => rfl
  | _, _, .cons _ hrest => by rw [List.map_cons, List.map_cons, hrest.keys]

theorem has (h : Replaces name w m m') (path : String) : m'.has path = m.has path := by
  have hhas : ∀ fields : FieldMap, fields.has path = ((fields.field? path).isSome ||
      (fields.map Prod.fst).any fun k => (path.toList ++ ['/']).isPrefixOf k.toList) := by
    intro fields
    rw [FieldMap.has, List.any_map]
    rfl
  rw [hhas, hhas, h.keys]
  have hfield := h.field? path
  generalize m.field? path = f? at hfield ⊢
  generalize m'.field? path = f'? at hfield ⊢
  cases hfield with
  | none | some => rfl

end Replaces

end FieldMap

/-! ## Definitions with other texts under a name -/

namespace Legacy

variable {hints : Hints} {s : String}

/-- A text under the name is exchanged for a given one. -/
def Exchanges (name s : String) (key : String) (j j' : Json) : Prop :=
  Path.leaf key = name ∧ (∃ s₀, j = .str s₀) ∧ j' = .str s

theorem not_wrapper_of_exchanges {key : String} (j j' : Json) (h : Exchanges name s key j j')
    (hj : j.text? = none) : j'.text? = none := by
  obtain ⟨-, ⟨s₀, rfl⟩, -⟩ := h
  cases hj

mutual

/-- The value that a text configures is replaced. -/
theorem replaces_normalizeField (hname : Path.leaf name = name) : ∀ {key : String} {j j' : Json},
    Rewrites (Exchanges name s) key j j' →
      Option.Rel (Field.Replaces name (.fixed (leaf hints name (.str s))) (Path.leaf key))
        (normalizeField hints key j) (normalizeField hints key j')
  | key, j, _, .same _ _ => by
    cases normalizeField hints key j with
    | none => exact .none
    | some f => exact .some (.same _ f)
  | key, j, _, .step h hstep => by
    have hbefore := replaces_normalizeField hname h
    obtain ⟨hkey, ⟨s₀, rfl⟩, rfl⟩ := hstep
    have hleaf : leaf hints key (.str s) = leaf hints name (.str s) :=
      leaf_congr hints (hkey.trans hname.symm) _
    have htext : ∀ s, normalizeField hints key (.str s) =
        some (.value (.fixed (leaf hints key (.str s)))) := fun _ => rfl
    rw [htext] at hbefore ⊢
    rw [hleaf]
    -- Whatever stood there before, it was a value
    generalize normalizeField hints key j = f? at hbefore ⊢
    cases hbefore with
    | some hf =>
      obtain ⟨v, rfl⟩ := hf.exists_value
      rw [hkey]
      exact .some (.value v)
  | _, _, _, .object hplain h => by
    rw [normalizeField, normalizeField, hplain,
      h.wrapperType?_eq_none not_wrapper_of_exchanges hplain]
    exact .some (.group (replaces_normalizeMembers hname h))
  | _, _, _, .inside htype htransparent hfirst h => by
    rw [normalizeField_inside _ htype htransparent hfirst, normalizeField_inside _
      ((wrapperType?_inside _ _).trans htype) htransparent hfirst]
    exact replaces_normalizeField hname h
  | key, .arr elements, _, .list h => by
    by_cases hnil : elements = []
    · rw [hnil, h.eq_nil_iff.mpr hnil]
      exact .some (.same _ _)
    · obtain ⟨hall, hall'⟩ := h.all_isObject
      rw [normalizeField, normalizeField, if_pos ⟨hnil, hall⟩,
        if_pos ⟨mt h.eq_nil_iff.mp hnil, hall'⟩]
      exact .some (.items (replaces_normalizeRows hname h))

theorem replaces_normalizeMembers (hname : Path.leaf name = name) :
    ∀ {members members' : List (String × Json)},
      RewritesMembers (Exchanges name s) members members' →
        FieldMap.Replaces name (.fixed (leaf hints name (.str s))) (normalizeMembers hints members)
          (normalizeMembers hints members')
  | _, _, .nil => .nil
  | (key, j) :: _, (_, j') :: _, .cons h hrest => by
    have hfield := replaces_normalizeField hname h
    have hfields := replaces_normalizeMembers hname hrest
    rw [normalizeMembers, normalizeMembers]
    split
    · exact hfields
    · generalize normalizeField hints key j = f? at hfield ⊢
      generalize normalizeField hints key j' = f'? at hfield ⊢
      cases hfield with
      | none => exact hfields
      | some hf => exact .cons hf hfields

theorem replaces_normalizeRows (hname : Path.leaf name = name) :
    ∀ {elements elements' : List Json}, RewritesRows (Exchanges name s) elements elements' →
      Field.RowsReplace name (.fixed (leaf hints name (.str s))) (normalizeRows hints elements)
        (normalizeRows hints elements')
  | _, _, .nil => .nil
  | _, _, .cons h hrest => by
    rw [normalizeRows, normalizeRows]
    exact .cons (replaces_normalizeMembers hname h) (replaces_normalizeRows hname hrest)

end

end Legacy

end ProfileMigration
