/-
  ProfileMigration.Json.Document

  JSON text taken apart. A document keeps members in the order written, repeated keys included,
  and leaves open what has a place in the text but no value, so that a reader which skips a
  member does not ask what it holds:

    Document            -- the tree
    Document.within     -- what nests too deep has no value
    Document.value?     -- the value, when every part has one
    Document.ofJson     -- a value as a document
    Document.depth      -- how deep containers nest

  `load_artifact` and the workbooks of a rehearsal are read from documents.
-/
import ProfileMigration.Json.Basic

namespace ProfileMigration

/-- A JSON text taken apart. -/
inductive Document where
  | null
  | bool (b : Bool)
  | num (n : Number)
  | str (s : String)
  | arr (elements : List Document)
  | obj (members : List (String × Document))
  /-- Well-formed text without a value: a number too large, a string with half a surrogate
      pair, an object with such a key, or a container nested too deep. -/
  | unreadable

namespace Document

instance : Inhabited Document := ⟨.null⟩

/-- An object, when every key is a text. -/
def ofMembers (members : List (Option String × Document)) : Document :=
  match members.mapM fun (key?, d) => key?.map (·, d) with
  | some members => .obj members
  | none => .unreadable

/-! ## Depth -/

mutual

/-- Containers deeper than a limit have no value. -/
def within (limit : Nat) : Document → Document
  | .arr elements => if limit = 0 then .unreadable else .arr (withinList (limit - 1) elements)
  | .obj members => if limit = 0 then .unreadable else .obj (withinMembers (limit - 1) members)
  | .null => .null
  | .bool b => .bool b
  | .num n => .num n
  | .str s => .str s
  | .unreadable => .unreadable

/-- The limit on each element. -/
def withinList (limit : Nat) : List Document → List Document
  | [] => []
  | d :: rest => within limit d :: withinList limit rest

/-- The limit on each member. -/
def withinMembers (limit : Nat) : List (String × Document) → List (String × Document)
  | [] => []
  | (k, d) :: rest => (k, within limit d) :: withinMembers limit rest

end

mutual

/-- The number of containers on the longest way to a leaf. -/
def depth : Document → Nat
  | .arr elements => depthList elements + 1
  | .obj members => depthMembers members + 1
  | .null | .bool _ | .num _ | .str _ | .unreadable => 0

/-- The largest depth among elements. -/
def depthList : List Document → Nat
  | [] => 0
  | d :: rest => max (depth d) (depthList rest)

/-- The largest depth among members. -/
def depthMembers : List (String × Document) → Nat
  | [] => 0
  | (_, d) :: rest => max (depth d) (depthMembers rest)

end

/-! ## Values -/

mutual

/-- The value, when every part has one. -/
def value? : Document → Option Json
  | .null => some .null
  | .bool b => some (.bool b)
  | .num n => some (.num n)
  | .str s => some (.str s)
  | .arr elements => (values? elements).map .arr
  | .obj members => (memberValues? members).map .obj
  | .unreadable => none

/-- The values of all elements. -/
def values? : List Document → Option (List Json)
  | [] => some []
  | d :: rest =>
    match value? d with
    | none => none
    | some j => (values? rest).map (j :: ·)

/-- The values of all members. -/
def memberValues? : List (String × Document) → Option (List (String × Json))
  | [] => some []
  | (k, d) :: rest =>
    match value? d with
    | none => none
    | some j => (memberValues? rest).map ((k, j) :: ·)

end

mutual

/-- A value as a document. -/
def ofJson : Json → Document
  | .null => .null
  | .bool b => .bool b
  | .num n => .num n
  | .str s => .str s
  | .arr elements => .arr (ofElements elements)
  | .obj members => .obj (ofJsonMembers members)

/-- Elements as documents. -/
def ofElements : List Json → List Document
  | [] => []
  | j :: rest => ofJson j :: ofElements rest

/-- Members with their values as documents. -/
def ofJsonMembers : List (String × Json) → List (String × Document)
  | [] => []
  | (k, j) :: rest => (k, ofJson j) :: ofJsonMembers rest

end

mutual

/-- A value made a document is the value of it. -/
theorem value?_ofJson : (j : Json) → (ofJson j).value? = some j
  | .null | .bool _ | .num _ | .str _ => rfl
  | .arr elements => by simp [ofJson, value?, values?_ofElements elements]
  | .obj members => by simp [ofJson, value?, memberValues?_ofJsonMembers members]

/-- Elements made documents are the values of them. -/
theorem values?_ofElements : (js : List Json) → values? (ofElements js) = some js
  | [] => rfl
  | j :: rest => by simp [ofElements, values?, value?_ofJson j, values?_ofElements rest]

/-- Members made documents are the values of them. -/
theorem memberValues?_ofJsonMembers :
    (members : List (String × Json)) → memberValues? (ofJsonMembers members) = some members
  | [] => rfl
  | (k, j) :: rest => by
    simp [ofJsonMembers, memberValues?, value?_ofJson j, memberValues?_ofJsonMembers rest]

end

end Document

end ProfileMigration
