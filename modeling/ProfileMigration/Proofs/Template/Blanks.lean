/-
  ProfileMigration.Proofs.Template.Blanks

  Field trees with a value that says nothing, and the same without it:

    Drops               -- a tree, the same without the value, and the path of the value
    Unset               -- no other spelling of the path leads to anything
    FoundLike           -- what both read at a path
    Unset.field?        -- both read alike everywhere
    Unset.configured?   -- so that the same is configured, and items come in the same number
-/
import Mathlib.Data.List.Forall2
import ProfileMigration.Proofs.Field.Segments
import ProfileMigration.Proofs.Text.KeyedLookup
import ProfileMigration.Template.Reading

namespace ProfileMigration

/-! ## Entries under keys -/

namespace Keyed

variable {α : Type} {key other : String}

theorem get?_append (key : String) (xs ys : List (String × α)) :
    get? key (xs ++ ys) = (get? key xs).or (get? key ys) := by
  induction xs with
  | nil => rfl
  | cons entry rest ih =>
    obtain ⟨k, v⟩ := entry
    rw [List.cons_append]
    by_cases hk : k = key
    · subst hk
      rw [get?_cons_self, get?_cons_self, Option.some_or]
    · rw [get?_cons_of_ne hk, get?_cons_of_ne hk, ih]

/-- Another entry does not matter. -/
theorem get?_middle_of_ne (h : other ≠ key) (value : α) (before after : List (String × α)) :
    get? key (before ++ (other, value) :: after) = get? key (before ++ after) := by
  rw [get?_append, get?_cons_of_ne h, get?_append]

/-- After one of the same key, it does not matter what an entry holds. -/
theorem get?_middle_congr {before : List (String × α)} (h : get? key before ≠ none)
    (value value' : α) (after : List (String × α)) (other : String) :
    get? other (before ++ (key, value) :: after) =
      get? other (before ++ (key, value') :: after) := by
  by_cases hother : key = other
  · subst hother
    obtain ⟨held, hheld⟩ := Option.ne_none_iff_exists'.mp h
    rw [get?_append, get?_append, hheld, Option.some_or, Option.some_or]
  · rw [get?_middle_of_ne hother, get?_middle_of_ne hother]

theorem get?_middle_of_none {before : List (String × α)} (h : get? key before = none) (value : α)
    (after : List (String × α)) : get? key (before ++ (key, value) :: after) = some value := by
  rw [get?_append, h, Option.none_or, get?_cons_self]

end Keyed

namespace Template

/-! ## Trees without a value -/

/-- A field tree with a value that says nothing, and the same without it. The path is that of the
    value below the item that it stands in; there is none if that is an item of the tree, and then
    no other spelling of the path leads to anything in the item. -/
inductive Drops : Option (List String) → FieldMap → FieldMap → Prop where
  | value {key : String} {v : TypedValue} {before after : FieldMap} (hv : saysNothing v = true) :
      Drops (some (Path.segments key)) (before ++ (key, .value v) :: after) (before ++ after)
  | group {path? : Option (List String)} {key : String} {inner inner' before after : FieldMap}
      (h : Drops path? inner inner') :
      Drops (path?.map (Path.segments key ++ ·)) (before ++ (key, .group inner) :: after)
        (before ++ (key, .group inner') :: after)
  | item {path? : Option (List String)} {key : String} {row row' before after : FieldMap}
      {rows rows' : List FieldMap} (h : Drops path? row row')
      (halone : ∀ path ∈ path?, row'.fieldAt? path = none) :
      Drops none (before ++ (key, .items (rows ++ row :: rows')) :: after)
        (before ++ (key, .items (rows ++ row' :: rows')) :: after)

/-- A field tree with a value that says nothing, and the same without it, where no other spelling
    of its path leads to anything. -/
def Unset (m m' : FieldMap) : Prop :=
  ∃ path?, Drops path? m m' ∧ ∀ path ∈ path?, m'.fieldAt? path = none

/-- What such trees read: the same, or the value and nothing, or fields that again are such. The
    condition is that of the value being read. -/
inductive FoundLike (lost : Prop) : Option Field → Option Field → Prop where
  | same (f? : Option Field) : FoundLike lost f? f?
  | blank {v : TypedValue} (hv : saysNothing v = true) (hlost : lost) :
      FoundLike lost (some (.value v)) none
  | group {inner inner' : FieldMap} (h : Unset inner inner') :
      FoundLike lost (some (.group inner)) (some (.group inner'))
  | items {row row' : FieldMap} {rows rows' : List FieldMap} (h : Unset row row') :
      FoundLike lost (some (.items (rows ++ row :: rows'))) (some (.items (rows ++ row' :: rows')))

variable {m m' : FieldMap} {path? : Option (List String)} {lost : Prop}

theorem Drops.path_ne_nil (h : Drops path? m m') : ∀ path ∈ path?, path ≠ [] := by
  induction h with
  | value =>
    rintro path hpath
    obtain rfl := Option.some.inj hpath
    exact Path.segments_ne_nil _
  | group h ih =>
    rintro path hpath
    obtain ⟨inner, -, rfl⟩ := Option.map_eq_some_iff.mp hpath
    exact List.append_ne_nil_of_left_ne_nil (Path.segments_ne_nil _) inner
  | item => exact fun _ hpath => by cases hpath

/-! ## Searches -/

theorem FoundLike.mono {lost' : Prop} {f? f'? : Option Field} (h : FoundLike lost f? f'?)
    (hlost : lost → lost') : FoundLike lost' f? f'? := by
  cases h with
  | same f? => exact .same f?
  | blank hv h => exact .blank hv (hlost h)
  | group h => exact .group h
  | items h => exact .items h

/-- The first of two readings that finds anything, as long as nothing else stands where the value
    has been. -/
theorem FoundLike.or {f? f'? g? g'? : Option Field} (hf : FoundLike lost f? f'?)
    (hg : FoundLike lost g? g'?) (halone : lost → f'?.or g'? = none) :
    FoundLike lost (f?.or g?) (f'?.or g'?) := by
  cases hf with
  | same f? =>
    cases f? with
    | none => exact hg
    | some f => exact .same _
  | blank hv hlost =>
    rw [halone hlost]
    exact .blank hv hlost
  | group h => exact .group h
  | items h => exact .items h

theorem FoundLike.findSome? {α : Type} {f f' : α → Option Field} {l : List α}
    (h : ∀ a ∈ l, FoundLike lost (f a) (f' a)) (halone : lost → l.findSome? f' = none) :
    FoundLike lost (l.findSome? f) (l.findSome? f') := by
  have hcons : ∀ (g : α → Option Field) (a : α) (rest : List α),
      (a :: rest).findSome? g = (g a).or (rest.findSome? g) := by
    intro g a rest
    rw [List.findSome?_cons]
    cases g a with
    | none => rfl
    | some b => rfl
  induction l with
  | nil => exact .same none
  | cons a rest ih =>
    obtain ⟨ha, hrest⟩ := List.forall_mem_cons.mp h
    rw [hcons, hcons]
    rw [hcons] at halone
    exact ha.or (ih hrest fun hlost => (Option.or_eq_none_iff.mp (halone hlost)).2) halone

/-! ## Reading at a path -/

variable {segs : List String}

/-- Reading at some segments is reading under the keys that first ones of them make. -/
theorem foundLike_of_keys
    (hkey : FoundLike lost (Keyed.get? (Path.joined segs) m) (Keyed.get? (Path.joined segs) m'))
    (hcuts : ∀ cut ∈ Path.cuts segs,
      FoundLike lost ((m.groupAt? (Path.joined cut.1)).bind (·.fieldAt? cut.2))
        ((m'.groupAt? (Path.joined cut.1)).bind (·.fieldAt? cut.2)))
    (halone : lost → m'.fieldAt? segs = none) :
    FoundLike lost (m.fieldAt? segs) (m'.fieldAt? segs) := by
  rw [FieldMap.fieldAt?_eq m'] at halone
  rw [FieldMap.fieldAt?_eq, FieldMap.fieldAt?_eq m']
  have hlater := FoundLike.findSome? hcuts fun hlost =>
    (Option.or_eq_none_iff.mp (halone hlost)).2
  exact hkey.or hlater halone

/-- Trees that hold the same under every key read the same. -/
theorem foundLike_of_get?_eq (h : ∀ key, Keyed.get? key m = Keyed.get? key m') :
    FoundLike lost (m.fieldAt? segs) (m'.fieldAt? segs) := by
  have hsame : m.fieldAt? segs = m'.fieldAt? segs := by
    rw [FieldMap.fieldAt?_eq, FieldMap.fieldAt?_eq m']
    simp only [FieldMap.groupAt?, h]
  rw [hsame]
  exact .same _

/-- Trees that hold different fields under one key read alike if both fields do, and what both hold
    below them. -/
theorem foundLike_of_replaced {key : String} {f f' : Field} {before after : FieldMap}
    (hhere : FoundLike lost (some f) (some f'))
    (hbelow : ∀ cut ∈ Path.cuts segs, key = Path.joined cut.1 →
      FoundLike lost (f.group?.bind (·.fieldAt? cut.2)) (f'.group?.bind (·.fieldAt? cut.2)))
    (halone : lost → FieldMap.fieldAt? (before ++ (key, f') :: after) segs = none) :
    FoundLike lost (FieldMap.fieldAt? (before ++ (key, f) :: after) segs)
      (FieldMap.fieldAt? (before ++ (key, f') :: after) segs) := by
  by_cases hfree : Keyed.get? key before = none
  · refine foundLike_of_keys ?_ (fun cut hcut => ?_) halone
    · by_cases hkey : key = Path.joined segs
      · rw [← hkey, Keyed.get?_middle_of_none hfree, Keyed.get?_middle_of_none hfree]
        exact hhere
      · rw [Keyed.get?_middle_of_ne hkey, Keyed.get?_middle_of_ne hkey]
        exact .same _
    · by_cases hkey : key = Path.joined cut.1
      · rw [← hkey, FieldMap.groupAt?, FieldMap.groupAt?, Keyed.get?_middle_of_none hfree,
          Keyed.get?_middle_of_none hfree]
        exact hbelow cut hcut hkey
      · rw [FieldMap.groupAt?, FieldMap.groupAt?, Keyed.get?_middle_of_ne hkey,
          Keyed.get?_middle_of_ne hkey]
        exact .same _
  · exact foundLike_of_get?_eq (Keyed.get?_middle_congr hfree _ _ after)

/-- Nothing stands under a path that leads nowhere. -/
theorem get?_of_fieldAt?_segments {key : String} (h : m.fieldAt? (Path.segments key) = none) :
    Keyed.get? key m = none := by
  rw [FieldMap.fieldAt?_eq, Path.joined_segments] at h
  exact (Option.or_eq_none_iff.mp h).1

/-- Below a group, a path leads nowhere if it does so in the group. -/
theorem fieldAt?_of_group {key : String} {inner : FieldMap} {path : List String}
    (hgroup : m.groupAt? key = some inner) (hpath : path ≠ [])
    (h : m.fieldAt? (Path.segments key ++ path) = none) : inner.fieldAt? path = none := by
  rw [FieldMap.fieldAt?_eq] at h
  have hcut := Path.mem_cuts rfl (Path.segments_ne_nil key) hpath
  have hnone := List.findSome?_eq_none_iff.mp (Option.or_eq_none_iff.mp h).2 _ hcut
  rwa [Path.joined_segments, hgroup, Option.bind_some] at hnone

/-- Both trees read alike, as long as no other spelling of the path leads to anything. -/
theorem Drops.foundLike (h : Drops path? m m')
    (halone : ∀ path ∈ path?, m'.fieldAt? path = none) (hsegs : Path.IsSegments segs) :
    FoundLike (segs ∈ path?) (m.fieldAt? segs) (m'.fieldAt? segs) := by
  induction h generalizing segs with
  | @value key v before after hv =>
    have hfree := get?_of_fieldAt?_segments (halone _ rfl)
    rw [Keyed.get?_append, Option.or_eq_none_iff] at hfree
    refine foundLike_of_keys ?_ (fun cut _ => ?_) (halone segs)
    · by_cases hkey : key = Path.joined segs
      · have hlost : segs = Path.segments key := by rw [hkey, Path.segments_joined hsegs]
        rw [← hkey, Keyed.get?_middle_of_none hfree.1, Keyed.get?_append, hfree.1, hfree.2]
        exact .blank hv (congrArg some hlost.symm)
      · rw [Keyed.get?_middle_of_ne hkey]
        exact .same _
    · -- The value is no group, so that nothing is read through it
      have hgroup : FieldMap.groupAt? (before ++ (key, .value v) :: after) (Path.joined cut.1) =
          FieldMap.groupAt? (before ++ after) (Path.joined cut.1) := by
        by_cases hkey : key = Path.joined cut.1
        · rw [← hkey, FieldMap.groupAt?, FieldMap.groupAt?, Keyed.get?_middle_of_none hfree.1,
            Keyed.get?_append, hfree.1, hfree.2]
          rfl
        · rw [FieldMap.groupAt?, FieldMap.groupAt?, Keyed.get?_middle_of_ne hkey]
      rw [hgroup]
      exact .same _
  | @group path? key inner inner' before after h ih =>
    by_cases hfree : Keyed.get? key before = none
    · have hgroup' : FieldMap.groupAt? (before ++ (key, .group inner') :: after) key =
          some inner' := by
        rw [FieldMap.groupAt?, Keyed.get?_middle_of_none hfree]
        rfl
      have hinner : ∀ path ∈ path?, inner'.fieldAt? path = none := fun path hpath =>
        fieldAt?_of_group hgroup' (h.path_ne_nil path hpath)
          (halone _ (Option.map_eq_some_iff.mpr ⟨path, hpath, rfl⟩))
      refine foundLike_of_replaced (.group ⟨path?, h, hinner⟩) (fun cut hcut hkey => ?_)
        (halone segs)
      -- What comes after the cut is read in the group
      obtain ⟨hhead, htail⟩ := hsegs.of_cut hcut
      obtain ⟨happ, -, -⟩ := @Path.of_mem_cuts segs cut.1 cut.2 hcut
      have hsegments : Path.segments key = cut.1 := by rw [hkey, Path.segments_joined hhead]
      refine (ih hinner htail).mono fun hmem => Option.map_eq_some_iff.mpr ⟨_, hmem, ?_⟩
      rw [hsegments, happ]
    · exact foundLike_of_get?_eq (Keyed.get?_middle_congr hfree _ _ after)
  | @item path? key row row' before after rows rows' h halone' _ =>
    exact foundLike_of_replaced (.items ⟨path?, h, halone'⟩) (fun _ _ _ => .same none) (halone segs)

/-- Both trees read alike everywhere. -/
theorem Unset.field? (h : Unset m m') (path : String) :
    FoundLike True (m.field? path) (m'.field? path) := by
  obtain ⟨path?, hdrops, halone⟩ := h
  exact (hdrops.foundLike halone (Path.isSegments_segments path)).mono fun _ => trivial

namespace Unset

/-! ## What is configured -/

/-- The value at a path is the same, or it is there in one of them only and says nothing. -/
theorem value? (h : Unset m m') (path : String) :
    m'.value? path = m.value? path ∨
      m'.value? path = none ∧ ∃ v ∈ m.value? path, saysNothing v = true := by
  rw [FieldMap.value?, FieldMap.value?]
  have hfound := h.field? path
  generalize m.field? path = f? at hfound ⊢
  generalize m'.field? path = f'? at hfound ⊢
  cases hfound with
  | same f? => exact .inl rfl
  | @blank v hv _ => exact .inr ⟨rfl, v, rfl, hv⟩
  | group _ => exact .inl rfl
  | items _ => exact .inl rfl

theorem configured? (h : Unset m m') (path : String) :
    configured? m' path = configured? m path := by
  rw [Template.configured?, Template.configured?]
  rcases h.value? path with heq | ⟨hnone, v, hv, hsays⟩
  · rw [heq]
  · have hempty : Option.filter (fun v => !saysNothing v) (some v) = none :=
      Option.filter_some_neg (congrArg not hsays)
    rw [hnone, Option.mem_def.mp hv, hempty]
    rfl

/-- A group is the same, or again one without the value. -/
theorem group (h : Unset m m') (path : String) :
    (m'.group? path).getD [] = (m.group? path).getD [] ∨
      Unset ((m.group? path).getD []) ((m'.group? path).getD []) := by
  rw [FieldMap.group?, FieldMap.group?]
  have hfound := h.field? path
  generalize m.field? path = f? at hfound ⊢
  generalize m'.field? path = f'? at hfound ⊢
  cases hfound with
  | same f? => exact .inl rfl
  | blank _ _ => exact .inl rfl
  | group h => exact .inr h
  | items _ => exact .inl rfl

/-- Items come one for one; each is the same, or again one without the value. -/
theorem items (h : Unset m m') (path : String) :
    List.Forall₂ (fun row row' => row' = row ∨ Unset row row') (m.items path) (m'.items path) := by
  have hsame : ∀ rows : List FieldMap,
      List.Forall₂ (fun row row' => row' = row ∨ Unset row row') rows rows :=
    fun rows => List.forall₂_same.mpr fun _ _ => .inl rfl
  rw [FieldMap.items, FieldMap.items]
  have hfound := h.field? path
  generalize m.field? path = f? at hfound ⊢
  generalize m'.field? path = f'? at hfound ⊢
  cases hfound with
  | same f? => exact hsame _
  | blank _ _ => exact .nil
  | group h => exact .cons (.inr h) .nil
  | @items row row' rows rows' h =>
    exact List.rel_append (hsame rows) (.cons (.inr h) (hsame rows'))

end Unset

end Template

end ProfileMigration
