/-
  ProfileMigration.Legacy.Normalize

  Legacy definitions as typed field trees:

    metaKeys        -- members that describe the definition and configure nothing
    normalizeField  -- one member; a wrapper may make it a variable, a default, or nothing
    normalize       -- a whole definition

  A wrapper is an object whose `vipType` is a text. Its type tells a variable from an ignored
  value; any other wrapper stands for the value in it.

  This models `normalize` with `normalize_object`, `normalize_field` and `unwrap_vip`.
-/
import ProfileMigration.Legacy.Spelling

namespace ProfileMigration.Legacy

/-- Members that describe the definition and configure nothing. -/
def metaKeys : List String := ["vipObjectType", "vipPrimaryKey", "priority-order", "viewKeys"]

/-- The type of a wrapper object. -/
def wrapperType? (members : List (String × Json)) : Option String :=
  (Keyed.get? "vipType" members).bind Json.text?

/-- The variable that a wrapper names; without a name it is called like the member. -/
def variableName (key : String) (members : List (String × Json)) : String :=
  match (Keyed.get? "vipVariableName" members).bind Json.text? with
  | some name => if name = "" then key else name
  | none => key

/-- An ignored value: a tree is not configured at all, nothing leaves the default unknown,
    and anything else is the default. -/
def ignored (hints : Hints) (key : String) : Option Json → Option Field
  | some (.arr _) | some (.obj _) => none
  | none | some .null => some (.value (.inherited none))
  | some (.str s) =>
    if s = "" then some (.value (.inherited none))
    else some (.value (.inherited (some (leaf hints key (.str s)))))
  | some j => some (.value (.inherited (some (leaf hints key j))))

mutual

/-- A member of a definition as a field, if it configures anything. -/
def normalizeField (hints : Hints) (key : String) : Json → Option Field
  | .obj members =>
    match wrapperType? members with
    | none => some (.group (normalizeMembers hints members))
    | some type =>
      if type = "variableName" ∨ type = "variable" then
        some (.value (.reference (variableName key members)))
      else if type = "ignore" then ignored hints key (Keyed.get? "vipValue" members)
      -- What is in a wrapper may be a wrapper again
      else normalizeWrapped hints key members
  | .arr elements =>
    if elements ≠ [] ∧ elements.all Json.isObject then
      some (.items (normalizeRows hints elements))
    else some (.value (.fixed (leaf hints key (.arr elements))))
  | j => some (.value (.fixed (leaf hints key j)))

/-- The value in a wrapper, under the name of the wrapper. -/
def normalizeWrapped (hints : Hints) (key : String) : List (String × Json) → Option Field
  | [] => none
  | (k, j) :: rest =>
    if k = "vipValue" then normalizeField hints key j else normalizeWrapped hints key rest

/-- The fields of an object. -/
def normalizeMembers (hints : Hints) : List (String × Json) → FieldMap
  | [] => []
  | (k, j) :: rest =>
    if k ∈ metaKeys then normalizeMembers hints rest
    else match normalizeField hints k j with
      | some f => (k, f) :: normalizeMembers hints rest
      | none => normalizeMembers hints rest

/-- The objects of a list as items. -/
def normalizeRows (hints : Hints) : List Json → List FieldMap
  | [] => []
  | .obj members :: rest => normalizeMembers hints members :: normalizeRows hints rest
  | _ :: rest => normalizeRows hints rest

end

/-- A definition as a field tree; what is no object configures nothing. -/
def normalize (hints : Hints) : Json → FieldMap
  | .obj members => normalizeMembers hints members
  | _ => []

end ProfileMigration.Legacy
