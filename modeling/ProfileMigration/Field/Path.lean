/-
  ProfileMigration.Field.Path

  Paths into field trees. A path is a text of segments between slashes; a tree may hold it as
  nested groups, as one flat key, or as any mixture of both:

    segments / joined   -- a path and its segments
    cuts                -- the ways to cut segments in two, longest head first
    FieldMap.fieldAt?    -- the field at a list of segments
    FieldMap.field? / value? / group? / items -- the field at a path
    FieldMap.has        -- whether something is configured at or below a path
    FieldMap.set        -- writes a field at a path, through groups

  `FieldMap.field?`, `value?`, `has`, `group?` and `items` model `lookup`, `value`, `contains`,
  `group` and `items` of `FieldPath`; `FieldMap.set` models `set_path`.
-/
import ProfileMigration.Field.Basic

namespace ProfileMigration

namespace Path

/-- The segments of a path. -/
def segments (path : String) : List String :=
  (Text.splitBy (· = '/') path.toList).map String.ofList

/-- The key that segments make together. -/
def joined (segs : List String) : String := String.intercalate "/" segs

/-- The last segment of a path. -/
def leaf (path : String) : String := (segments path).getLastD path

/-- The ways to cut a list in two parts that are not empty, longest first part first. -/
def cuts : List String → List (List String × List String)
  | [] => []
  | [_] => []
  | s :: rest => (cuts rest).map (fun (head, tail) => (s :: head, tail)) ++ [([s], rest)]

/-- A cut loses nothing and leaves neither part empty. -/
theorem of_mem_cuts {segs head tail : List String} (h : (head, tail) ∈ cuts segs) :
    head ++ tail = segs ∧ head ≠ [] ∧ tail ≠ [] := by
  induction segs generalizing head tail with
  | nil => simp [cuts] at h
  | cons s rest ih =>
    cases rest with
    | nil => simp [cuts] at h
    | cons t more =>
      simp only [cuts, List.mem_append, List.mem_map, List.mem_singleton, Prod.mk.injEq] at h
      rcases h with ⟨⟨head', tail'⟩, hmem, rfl, rfl⟩ | ⟨rfl, rfl⟩
      · obtain ⟨happ, _, htail⟩ := ih hmem
        exact ⟨by simp [happ], by simp, htail⟩
      · simp

theorem length_tail_lt_of_mem_cuts {segs : List String} {cut : List String × List String}
    (h : cut ∈ cuts segs) : cut.2.length < segs.length := by
  obtain ⟨happ, hhead, _⟩ := @of_mem_cuts segs cut.1 cut.2 h
  have hlen := congrArg List.length happ
  have := List.length_pos_iff.mpr hhead
  simp only [List.length_append] at hlen
  omega

end Path

namespace FieldMap

/-! ## Reading -/

/-- The field at a list of segments: under the key of all of them, else through the group
    under the longest key of some first ones that leads to a field. -/
def fieldAt? (m : FieldMap) (segs : List String) : Option Field :=
  match Keyed.get? (Path.joined segs) m with
  | some field => some field
  | none =>
    (Path.cuts segs).attach.findSome? fun ⟨cut, hcut⟩ =>
      match Keyed.get? (Path.joined cut.1) m with
      | some (.group inner) =>
        have : cut.2.length < segs.length := Path.length_tail_lt_of_mem_cuts hcut
        fieldAt? inner cut.2
      | _ => none
termination_by segs.length

/-- The field at a path. -/
def field? (m : FieldMap) (path : String) : Option Field := m.fieldAt? (Path.segments path)

/-- The value at a path. -/
def value? (m : FieldMap) (path : String) : Option TypedValue := (m.field? path).bind Field.value?

/-- The group at a path. -/
def group? (m : FieldMap) (path : String) : Option FieldMap := (m.field? path).bind Field.group?

/-- The items at a path; a group counts as one item. -/
def items (m : FieldMap) (path : String) : List FieldMap :=
  match m.field? path with
  | some (.items rows) => rows
  | some (.group fields) => [fields]
  | _ => []

/-- Whether something is configured at a path, or under a flat key below it. -/
def has (m : FieldMap) (path : String) : Bool :=
  (m.field? path).isSome || m.any fun (k, _) => (path.toList ++ ['/']).isPrefixOf k.toList

/-! ## Writing -/

/-- Writes a field at a list of segments. What stands in the way and is no group is replaced
    by one. -/
def setAt (m : FieldMap) (segs : List String) (field : Field) : FieldMap :=
  match segs with
  | [] => m
  | [s] => Keyed.insert s field m
  | s :: rest =>
    let inner := match Keyed.get? s m with
      | some (.group fields) => fields
      | _ => []
    Keyed.insert s (.group (setAt inner rest field)) m
termination_by structural segs

/-- Writes a field at a path. -/
def set (m : FieldMap) (path : String) (field : Field) : FieldMap :=
  m.setAt (Path.segments path) field

end FieldMap

end ProfileMigration
