/-
  ProfileMigration.Field.References

  References from one converted object to others, and their binding to the identifiers the
  manager gave out:

    FieldMap.objectIds      -- every referenced object, in order, repetitions included
    FieldMap.references     -- each referenced object once, in order of first mention
    RemoteIds               -- which remote identifier an object was created as
    FieldMap.bind           -- puts remote identifiers in place of references

  `FieldMap.references` models what `collect_refs` gathers, `FieldMap.bind` models `bind_refs`.
-/
import ProfileMigration.Field.Path

namespace ProfileMigration

namespace Field

mutual

/-- The objects referenced below a field, in order. -/
def objectIds : Field → List Uuid
  | .value v => v.objectId?.toList
  | .group fields => objectIdsOf fields
  | .items rows => objectIdsOfRows rows

/-- The objects referenced below named fields, in order. -/
def objectIdsOf : List (String × Field) → List Uuid
  | [] => []
  | (_, f) :: rest => objectIds f ++ objectIdsOf rest

/-- The objects referenced below items, in order. -/
def objectIdsOfRows : List (List (String × Field)) → List Uuid
  | [] => []
  | row :: rest => objectIdsOf row ++ objectIdsOfRows rest

end

end Field

/-- The objects referenced in a field tree, in order. -/
def FieldMap.objectIds (m : FieldMap) : List Uuid := Field.objectIdsOf m

/-- The objects referenced in a field tree, each once. -/
def FieldMap.references (m : FieldMap) : List Uuid := m.objectIds.eraseDups

/-! ## Remote identifiers -/

/-- The remote identifiers of created objects by their own; the latest entry comes first and
    counts. -/
abbrev RemoteIds := List (Uuid × Uuid)

namespace RemoteIds

/-- The remote identifier of an object. -/
def get? (ids : RemoteIds) (id : Uuid) : Option Uuid := ids.lookup id

/-- Records the remote identifier of an object. -/
def assign (ids : RemoteIds) (id remote : Uuid) : RemoteIds := (id, remote) :: ids

/-- Adds entries on top of older ones. -/
def overlay (newer older : RemoteIds) : RemoteIds := newer ++ older

end RemoteIds

/-! ## Binding -/

namespace Field

mutual

/-- Replaces every reference below a field by the text of its remote identifier, or gives the
    first reference that has none. -/
def bind (ids : RemoteIds) : Field → Except Uuid Field
  | .value v =>
    match v.objectId? with
    | none => .ok (.value v)
    | some id =>
      match ids.get? id with
      | some remote => .ok (.value (.text remote.text))
      | none => .error id
  | .group fields => (bindFields ids fields).map .group
  | .items rows => (bindRows ids rows).map .items

/-- Binds named fields in order. -/
def bindFields (ids : RemoteIds) : List (String × Field) → Except Uuid (List (String × Field))
  | [] => .ok []
  | (k, f) :: rest =>
    match bind ids f with
    | .error id => .error id
    | .ok f => (bindFields ids rest).map ((k, f) :: ·)

/-- Binds items in order. -/
def bindRows (ids : RemoteIds) :
    List (List (String × Field)) → Except Uuid (List (List (String × Field)))
  | [] => .ok []
  | row :: rest =>
    match bindFields ids row with
    | .error id => .error id
    | .ok row => (bindRows ids rest).map (row :: ·)

end

end Field

/-- Replaces every reference in a field tree by the text of its remote identifier. -/
def FieldMap.bind (ids : RemoteIds) (m : FieldMap) : Except Uuid FieldMap := Field.bindFields ids m

end ProfileMigration
