/-
  ProfileMigration.Proofs.Field.Segments

  Paths, their segments, and what reading a path goes by:

    Path.single_iff             -- a path of one segment has no slash
    Path.segments_below         -- the segments of a path below a name
    Path.leaf_below             -- and its last segment, which the name does not matter to
    Path.segments_joined        -- segments make a path that has these segments
    Path.segments_slash         -- the segments of a path below another one
    Path.mem_cuts               -- every way to cut segments in two is one of their cuts
    FieldMap.fieldAt?_eq        -- the field at some segments, by the keys that they make
    FieldMap.fieldAt?_congr     -- reading looks only at the keys that first segments make
    FieldMap.fieldAt?_cons      -- the field at some segments below a name
-/
import Mathlib.Data.List.Basic
import ProfileMigration.Proofs.Field.Naming
import ProfileMigration.Proofs.Text.Pieces

namespace ProfileMigration

namespace Path

variable {k s t path : String} {rest : List String}

/-! ## Segments -/

theorem not_slash {cs : List Char} (h : '/' ∉ cs) : ∀ c ∈ cs, decide (c = '/') = false :=
  fun _ hc => decide_eq_false fun hslash => h (hslash ▸ hc)

theorem single_iff : Single s ↔ '/' ∉ s.toList := by
  rw [Single, segments]
  constructor
  · intro h hslash
    have hpiece : s.toList ∈ Text.splitBy (· = '/') s.toList := by
      obtain ⟨piece, hsplit, hpiece⟩ := List.map_eq_singleton_iff.mp h
      rw [hsplit, ← hpiece, String.toList_ofList]
      exact List.mem_singleton_self _
    exact of_decide_eq_false (Text.not_cut_of_mem_splitBy hpiece _ hslash) rfl
  · intro h
    rw [Text.splitBy_eq_singleton (not_slash h)]
    exact congrArg (fun s => [s]) String.ofList_toList

theorem segments_ne_nil (path : String) : segments path ≠ [] :=
  fun h => Text.splitBy_ne_nil _ _ (List.map_eq_nil_iff.mp h)

/-- The segments of a path have no slash. -/
theorem single_of_mem_segments (h : s ∈ segments path) : Single s := by
  obtain ⟨piece, hpiece, rfl⟩ := List.mem_map.mp h
  rw [single_iff, String.toList_ofList]
  exact fun hslash => of_decide_eq_false (Text.not_cut_of_mem_splitBy hpiece _ hslash) rfl

theorem segments_below (hk : Single k) (path : String) :
    segments (k ++ "/" ++ path) = k :: segments path := by
  have htext : (k ++ "/" ++ path).toList = k.toList ++ '/' :: path.toList := by
    simp
  rw [segments, htext, Text.splitBy_append_cons (not_slash (single_iff.mp hk))
    (decide_eq_true rfl), List.map_cons, String.ofList_toList]
  rfl

/-- The last segment of a path is the same below any name. -/
theorem leaf_below (hk : Single k) (path : String) : leaf (k ++ "/" ++ path) = leaf path := by
  rw [leaf, segments_below hk, leaf]
  cases h : segments path with
  | nil => exact absurd h (segments_ne_nil path)
  | cons s rest => rfl

theorem joined_singleton (s : String) : joined [s] = s := String.intercalate_singleton

theorem joined_cons (h : rest ≠ []) (s : String) : joined (s :: rest) = s ++ "/" ++ joined rest :=
  String.intercalate_cons_of_ne_nil h

/-- A key that segments make begins with the first of them. -/
theorem head?_segments_joined (hs : Single s) (rest : List String) :
    (segments (joined (s :: rest))).head? = some s := by
  cases rest with
  | nil =>
    rw [joined_singleton, hs]
    rfl
  | cons t more =>
    rw [joined_cons (List.cons_ne_nil t more), segments_below hs]
    rfl

/-! ## Paths and lists of segments -/

/-- The segments of some path: at least one, and none with a slash. -/
def IsSegments (segs : List String) : Prop := segs ≠ [] ∧ ∀ s ∈ segs, Single s

theorem isSegments_segments (path : String) : IsSegments (segments path) :=
  ⟨segments_ne_nil path, fun _ => single_of_mem_segments⟩

theorem segments_joined {segs : List String} (h : IsSegments segs) :
    segments (joined segs) = segs := by
  obtain ⟨hne, hsingle⟩ := h
  induction segs with
  | nil => exact absurd rfl hne
  | cons s rest ih =>
    obtain ⟨hs, hrest⟩ := List.forall_mem_cons.mp hsingle
    by_cases hnil : rest = []
    · rw [hnil, joined_singleton, hs]
    · rw [joined_cons hnil, segments_below hs, ih hnil hrest]

theorem joined_segments (path : String) : joined (segments path) = path := by
  refine String.toList_injective ?_
  rw [joined, segments, String.toList_intercalate, List.map_map]
  have hpieces : String.toList ∘ String.ofList = id := funext fun _ => String.toList_ofList
  rw [hpieces, List.map_id]
  exact Text.intercalate_splitBy '/' path.toList

/-- The segments of a path below another one, whatever that is, come after its segments. -/
theorem segments_slash (path rest : String) :
    segments (path ++ "/" ++ rest) = segments path ++ segments rest := by
  have hsegs : IsSegments (segments path ++ segments rest) :=
    ⟨List.append_ne_nil_of_left_ne_nil (segments_ne_nil path) _,
      List.forall_mem_append.mpr ⟨(isSegments_segments path).2, (isSegments_segments rest).2⟩⟩
  have hjoined : joined (segments path ++ segments rest) = path ++ "/" ++ rest := by
    rw [joined, String.intercalate_append_of_ne_nil (segments_ne_nil path) (segments_ne_nil rest),
      ← joined, ← joined, joined_segments, joined_segments]
  rw [← hjoined, segments_joined hsegs]

theorem mem_cuts {segs head tail : List String} (happ : head ++ tail = segs) (hhead : head ≠ [])
    (htail : tail ≠ []) : (head, tail) ∈ cuts segs := by
  induction head generalizing segs with
  | nil => exact absurd rfl hhead
  | cons s more ih =>
    subst happ
    have hne : more ++ tail ≠ [] := List.append_ne_nil_of_right_ne_nil more htail
    obtain ⟨t, rest, hcons⟩ := List.exists_cons_of_ne_nil hne
    have hcuts : cuts (s :: t :: rest) =
        (cuts (t :: rest)).map (fun cut => (s :: cut.1, cut.2)) ++ [([s], t :: rest)] := rfl
    rw [List.cons_append, hcons, hcuts, List.mem_append, List.mem_map, List.mem_singleton]
    by_cases hnil : more = []
    · refine .inr ?_
      rw [← hcons, hnil, List.nil_append]
    · exact .inl ⟨(more, tail), ih hcons hnil, rfl⟩

theorem IsSegments.of_cut {segs : List String} (h : IsSegments segs)
    {cut : List String × List String} (hcut : cut ∈ cuts segs) :
    IsSegments cut.1 ∧ IsSegments cut.2 := by
  obtain ⟨happ, hhead, htail⟩ := @of_mem_cuts segs cut.1 cut.2 hcut
  have hsingle := h.2
  rw [← happ, List.forall_mem_append] at hsingle
  exact ⟨⟨hhead, hsingle.1⟩, ⟨htail, hsingle.2⟩⟩

end Path

namespace FieldMap

variable {m m' : FieldMap}

/-! ## Reading by segments -/

/-- The fields of the group under a key, if there is one. -/
def groupAt? (m : FieldMap) (key : String) : Option FieldMap :=
  (Keyed.get? key m).bind Field.group?

/-- The field at some segments stands under the key of all of them, else in the group under the
    longest key of some first ones that leads to a field. -/
theorem fieldAt?_eq (m : FieldMap) (segs : List String) :
    m.fieldAt? segs = (Keyed.get? (Path.joined segs) m).or ((Path.cuts segs).findSome? fun cut =>
      (m.groupAt? (Path.joined cut.1)).bind (·.fieldAt? cut.2)) := by
  rw [fieldAt?]
  cases Keyed.get? (Path.joined segs) m with
  | some f => rfl
  | none =>
    rw [Option.none_or]
    dsimp only
    refine (List.findSome?_subtype fun cut hcut => ?_).trans
      (congrArg (List.findSome? _) List.unattach_attach)
    rw [groupAt?]
    rcases Keyed.get? (Path.joined cut.1) m with _ | ⟨_ | _ | _⟩
    all_goals rfl

/-- Nothing is read from an empty tree. -/
theorem field?_nil (path : String) : FieldMap.field? [] path = none := by
  rw [field?, fieldAt?_eq]
  exact List.findSome?_eq_none_iff.mpr fun _ _ => rfl

theorem findSome?_congr {α β : Type} {f g : α → Option β} {l : List α} (h : ∀ a ∈ l, f a = g a) :
    l.findSome? f = l.findSome? g := by
  rw [← List.head?_filterMap, ← List.head?_filterMap, List.filterMap_congr h]

/-- Reading looks only at the keys that first segments make. -/
theorem fieldAt?_congr {segs : List String} (hsegs : segs ≠ [])
    (h : ∀ head tail, head ++ tail = segs → head ≠ [] →
      Keyed.get? (Path.joined head) m = Keyed.get? (Path.joined head) m') :
    m.fieldAt? segs = m'.fieldAt? segs := by
  rw [fieldAt?_eq, fieldAt?_eq m', h segs [] (List.append_nil segs) hsegs]
  refine congrArg (Option.or _) (findSome?_congr fun cut hcut => ?_)
  obtain ⟨happ, hhead, -⟩ := Path.of_mem_cuts hcut
  rw [groupAt?, groupAt?, h cut.1 cut.2 happ hhead]

/-- Below a name, reading looks at the keys that begin with it, and last at its group. -/
theorem fieldAt?_cons {tail : List String} (htail : tail ≠ []) (m : FieldMap) (k : String) :
    m.fieldAt? (k :: tail) = (Keyed.get? (k ++ "/" ++ Path.joined tail) m).or
      (((Path.cuts tail).findSome? fun cut =>
        (m.groupAt? (k ++ "/" ++ Path.joined cut.1)).bind (·.fieldAt? cut.2)).or
      ((m.groupAt? k).bind (·.fieldAt? tail))) := by
  have hcuts : Path.cuts (k :: tail) =
      (Path.cuts tail).map (fun cut => (k :: cut.1, cut.2)) ++ [([k], tail)] := by
    cases tail with
    | nil => exact absurd rfl htail
    | cons t more => rfl
  rw [fieldAt?_eq, Path.joined_cons htail, hcuts, List.findSome?_append, List.findSome?_map,
    List.findSome?_singleton, Path.joined_singleton]
  refine congrArg (fun x => Option.or _ (Option.or x _)) (findSome?_congr fun cut hcut => ?_)
  obtain ⟨-, hhead, -⟩ := Path.of_mem_cuts hcut
  rw [Function.comp_apply, Path.joined_cons hhead]

end FieldMap

end ProfileMigration
