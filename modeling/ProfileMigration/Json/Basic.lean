/-
  ProfileMigration.Json.Basic

  JSON values as trees. An object is a list of members; a document as written may repeat a
  key or give keys in any order, a canonical value has each key once, in increasing order.

    Json                -- the tree
    Json.canonical      -- keys sorted, the last value of a repeated key
    Json.get?           -- the member of an object

  Legacy definitions, request bodies and answers are values of this kind.
-/
import ProfileMigration.Json.Number
import ProfileMigration.Text.Keyed

namespace ProfileMigration

/-- A JSON value. -/
inductive Json where
  | null
  | bool (b : Bool)
  | num (n : Number)
  | str (s : String)
  | arr (elements : List Json)
  | obj (members : List (String × Json))

namespace Json

instance : Inhabited Json := ⟨.null⟩

/-! ## Equality -/

mutual

/-- Equality of values can be decided. -/
def decEq : (a b : Json) → Decidable (a = b)
  | .null, .null => isTrue rfl
  | .bool a, .bool b =>
    if h : a = b then isTrue (by rw [h]) else isFalse (by intro e; injection e; contradiction)
  | .num a, .num b =>
    if h : a = b then isTrue (by rw [h]) else isFalse (by intro e; injection e; contradiction)
  | .str a, .str b =>
    if h : a = b then isTrue (by rw [h]) else isFalse (by intro e; injection e; contradiction)
  | .arr a, .arr b =>
    match decEqList a b with
    | isTrue h => isTrue (by rw [h])
    | isFalse h => isFalse (by intro e; injection e; contradiction)
  | .obj a, .obj b =>
    match decEqMembers a b with
    | isTrue h => isTrue (by rw [h])
    | isFalse h => isFalse (by intro e; injection e; contradiction)
  | .null, .bool _ | .null, .num _ | .null, .str _ | .null, .arr _ | .null, .obj _
  | .bool _, .null | .bool _, .num _ | .bool _, .str _ | .bool _, .arr _ | .bool _, .obj _
  | .num _, .null | .num _, .bool _ | .num _, .str _ | .num _, .arr _ | .num _, .obj _
  | .str _, .null | .str _, .bool _ | .str _, .num _ | .str _, .arr _ | .str _, .obj _
  | .arr _, .null | .arr _, .bool _ | .arr _, .num _ | .arr _, .str _ | .arr _, .obj _
  | .obj _, .null | .obj _, .bool _ | .obj _, .num _ | .obj _, .str _ | .obj _, .arr _ =>
    isFalse (by intro e; cases e)

/-- Equality of lists of values can be decided. -/
def decEqList : (a b : List Json) → Decidable (a = b)
  | [], [] => isTrue rfl
  | [], _ :: _ => isFalse (by intro e; cases e)
  | _ :: _, [] => isFalse (by intro e; cases e)
  | a :: as, b :: bs =>
    match decEq a b, decEqList as bs with
    | isTrue h, isTrue hs => isTrue (by rw [h, hs])
    | isFalse h, _ => isFalse (by intro e; injection e; contradiction)
    | _, isFalse hs => isFalse (by intro e; injection e; contradiction)

/-- Equality of lists of members can be decided. -/
def decEqMembers : (a b : List (String × Json)) → Decidable (a = b)
  | [], [] => isTrue rfl
  | [], _ :: _ => isFalse (by intro e; cases e)
  | _ :: _, [] => isFalse (by intro e; cases e)
  | (k, a) :: as, (l, b) :: bs =>
    if hk : k = l then
      match decEq a b, decEqMembers as bs with
      | isTrue h, isTrue hs => isTrue (by rw [hk, h, hs])
      | isFalse h, _ => isFalse (by intro e; injection e with e _; injection e; contradiction)
      | _, isFalse hs => isFalse (by intro e; injection e; contradiction)
    else isFalse (by intro e; injection e with e _; injection e; contradiction)

end

instance : DecidableEq Json := decEq

/-! ## Building and taking apart -/

/-- A signed 64-bit integer as a value. -/
def ofInt64 (n : Int64) : Json := .num (.int (.ofInt64 n))

/-- A double as a value; infinities and NaNs become null. -/
def ofBinary64 (x : Binary64) : Json :=
  match Number.ofBinary64? x with
  | some n => .num n
  | none => .null

/-- An optional value; nothing becomes null. -/
def ofOption : Option Json → Json
  | some j => j
  | none => .null

/-- The member of an object under a key. -/
def get? (key : String) : Json → Option Json
  | .obj members => Keyed.get? key members
  | _ => none

/-- The text of a string value. -/
def text? : Json → Option String
  | .str s => some s
  | _ => none

/-- The signed 64-bit integer of a number. -/
def int64? : Json → Option Int64
  | .num n => n.toInt64?
  | _ => none

/-- The elements of an array. -/
def elements? : Json → Option (List Json)
  | .arr elements => some elements
  | _ => none

/-- The members of an object. -/
def members? : Json → Option (List (String × Json))
  | .obj members => some members
  | _ => none

/-- Whether a value is an object. -/
def isObject : Json → Bool
  | .obj _ => true
  | _ => false

/-! ## Canonical form -/

mutual

/-- Sorts the members of every object by key; of a repeated key the last value stays. -/
def canonical : Json → Json
  | .arr elements => .arr (canonicalList elements)
  | .obj members => .obj (Keyed.ofList (canonicalMembers members))
  | .null => .null
  | .bool b => .bool b
  | .num n => .num n
  | .str s => .str s

/-- Canonical form of each element. -/
def canonicalList : List Json → List Json
  | [] => []
  | j :: rest => canonical j :: canonicalList rest

/-- Canonical form of each member's value, in place. -/
def canonicalMembers : List (String × Json) → List (String × Json)
  | [] => []
  | (k, j) :: rest => (k, canonical j) :: canonicalMembers rest

end

end Json

end ProfileMigration
