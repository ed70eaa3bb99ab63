/-
  ProfileMigration.Field.Basic

  Trees of parcel fields:

    Field           -- a value, a group of fields, or a list of items
    FieldMap        -- fields under names, in increasing order of name
    Field.Ordered   -- that order, in every group and item
    Field.toJson / ofJson?, FieldMap.toJson / ofJson? -- the wire form

  The wire form does not say which of the three a field is: what reads as a value is one.

  `Field` and `FieldMap` model the types of these names, and the wire form their untagged
  serialisation.
-/
import ProfileMigration.Value.Typed

namespace ProfileMigration

/-- A node of a field tree. -/
inductive Field where
  | value (v : TypedValue)
  | group (fields : List (String × Field))
  | items (rows : List (List (String × Field)))

/-- Fields under names. -/
abbrev FieldMap := List (String × Field)

namespace Field

instance : Inhabited Field := ⟨.group []⟩

/-! ## Equality -/

mutual

/-- Equality of fields can be decided. -/
def decEq : (a b : Field) → Decidable (a = b)
  | .value a, .value b =>
    if h : a = b then isTrue (by rw [h]) else isFalse (by intro e; injection e; contradiction)
  | .group a, .group b =>
    match decEqFields a b with
    | isTrue h => isTrue (by rw [h])
    | isFalse h => isFalse (by intro e; injection e; contradiction)
  | .items a, .items b =>
    match decEqRows a b with
    | isTrue h => isTrue (by rw [h])
    | isFalse h => isFalse (by intro e; injection e; contradiction)
  | .value _, .group _ | .value _, .items _ | .group _, .value _ | .group _, .items _
  | .items _, .value _ | .items _, .group _ => isFalse (by intro e; cases e)

/-- Equality of named fields can be decided. -/
def decEqFields : (a b : List (String × Field)) → Decidable (a = b)
  | [], [] => isTrue rfl
  | [], _ :: _ => isFalse (by intro e; cases e)
  | _ :: _, [] => isFalse (by intro e; cases e)
  | (k, a) :: as, (l, b) :: bs =>
    if hk : k = l then
      match decEq a b, decEqFields as bs with
      | isTrue h, isTrue hs => isTrue (by rw [hk, h, hs])
      | isFalse h, _ => isFalse (by intro e; injection e with e _; injection e; contradiction)
      | _, isFalse hs => isFalse (by intro e; injection e; contradiction)
    else isFalse (by intro e; injection e with e _; injection e; contradiction)

/-- Equality of items can be decided. -/
def decEqRows : (a b : List (List (String × Field))) → Decidable (a = b)
  | [], [] => isTrue rfl
  | [], _ :: _ => isFalse (by intro e; cases e)
  | _ :: _, [] => isFalse (by intro e; cases e)
  | a :: as, b :: bs =>
    match decEqFields a b, decEqRows as bs with
    | isTrue h, isTrue hs => isTrue (by rw [h, hs])
    | isFalse h, _ => isFalse (by intro e; injection e; contradiction)
    | _, isFalse hs => isFalse (by intro e; injection e; contradiction)

end

instance : DecidableEq Field := decEq

/-! ## Order -/

mutual

/-- Names increase strictly in every group and item below a field. -/
def Ordered : Field → Prop
  | .value _ => True
  | .group fields => Keyed.Ordered fields ∧ AllOrdered fields
  | .items rows => RowsOrdered rows

/-- Every named field is ordered below. -/
def AllOrdered : List (String × Field) → Prop
  | [] => True
  | (_, f) :: rest => Ordered f ∧ AllOrdered rest

/-- Every item is ordered. -/
def RowsOrdered : List (List (String × Field)) → Prop
  | [] => True
  | row :: rest => (Keyed.Ordered row ∧ AllOrdered row) ∧ RowsOrdered rest

end

/-! ## Parts -/

/-- A field with a fixed text. -/
def text (s : String) : Field := .value (.text s)

/-- A group whose one field refers to another converted object. -/
def objectRef (id : Uuid) : Field := .group [("refId", .value (.object id))]

/-- The value of a leaf. -/
def value? : Field → Option TypedValue
  | .value v => some v
  | .group _ | .items _ => none

/-- The fields of a group. -/
def group? : Field → Option FieldMap
  | .group fields => some fields
  | .value _ | .items _ => none

/-! ## Wire form -/

mutual

def toJson : Field → Json
  | .value v => v.toJson
  | .group fields => .obj (membersOf fields)
  | .items rows => .arr (elementsOf rows)

/-- The members that named fields become. -/
def membersOf : List (String × Field) → List (String × Json)
  | [] => []
  | (k, f) :: rest => (k, toJson f) :: membersOf rest

/-- The objects that items become. -/
def elementsOf : List (List (String × Field)) → List Json
  | [] => []
  | row :: rest => .obj (membersOf row) :: elementsOf rest

end

mutual

/-- Reads the wire form: a value if it reads as one, with tags by number too, otherwise an
    object of fields or a list of such objects. -/
def ofJson? (j : Json) : Option Field :=
  match TypedValue.ofJsonWith? true j with
  | some v => some (.value v)
  | none =>
    match j with
    | .obj members => (fieldsOnto [] members).map .group
    | .arr elements => (rowsOf elements).map .items
    | _ => none

/-- Reads members as fields and inserts them one after the other; every one must read. -/
def fieldsOnto (acc : FieldMap) : List (String × Json) → Option FieldMap
  | [] => some acc
  | (k, j) :: rest =>
    match ofJson? j with
    | some f => fieldsOnto (Keyed.insert k f acc) rest
    | none => none

/-- Reads objects as items. -/
def rowsOf : List Json → Option (List FieldMap)
  | [] => some []
  | .obj members :: rest =>
    match fieldsOnto [] members, rowsOf rest with
    | some row, some rows => some (row :: rows)
    | _, _ => none
  | _ :: _ => none

end

end Field

namespace FieldMap

/-- Names increase strictly at every level. -/
def Ordered (m : FieldMap) : Prop := Keyed.Ordered m ∧ Field.AllOrdered m

/-- The wire form: an object of fields. -/
def toJson (m : FieldMap) : Json := .obj (Field.membersOf m)

def ofJson? : Json → Option FieldMap
  | .obj members => Field.fieldsOnto [] members
  | _ => none

end FieldMap

end ProfileMigration
