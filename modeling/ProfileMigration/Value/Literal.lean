/-
  ProfileMigration.Value.Literal

  Concrete values of parcel fields:

    Literal             -- a truth value, number, address, network, text, list, or raw JSON
    Literal.text        -- how messages show it
    Literal.toInt64?    -- its value as an integer, from numbers and from text
    Literal.toJson / ofJson -- the wire form, which carries no type of its own

  On the wire a text that reads as an address or a network comes back as one, and an integer
  past the signed range comes back as a double.

  This models `Literal` with `as_i64`, its display and its untagged wire form.
-/
import ProfileMigration.Json.Printer
import ProfileMigration.Net.Network
import ProfileMigration.Text.Integer

namespace ProfileMigration

/-- A concrete value of a parcel field. -/
inductive Literal where
  | bool (b : Bool)
  | int (n : Int64)
  | float (x : Binary64)
  | address (a : IpAddress)
  | network (n : Network)
  | str (s : String)
  | list (items : List Literal)
  /-- A legacy value of a shape that no rule recognises, unchanged. -/
  | raw (j : Json)

namespace Literal

instance : Inhabited Literal := ⟨.bool false⟩

/-! ## Equality -/

mutual

/-- Equality of literals can be decided. -/
def decEq : (a b : Literal) → Decidable (a = b)
  | .bool a, .bool b =>
    if h : a = b then isTrue (by rw [h]) else isFalse (by intro e; injection e; contradiction)
  | .int a, .int b =>
    if h : a = b then isTrue (by rw [h]) else isFalse (by intro e; injection e; contradiction)
  | .float a, .float b =>
    if h : a = b then isTrue (by rw [h]) else isFalse (by intro e; injection e; contradiction)
  | .address a, .address b =>
    if h : a = b then isTrue (by rw [h]) else isFalse (by intro e; injection e; contradiction)
  | .network a, .network b =>
    if h : a = b then isTrue (by rw [h]) else isFalse (by intro e; injection e; contradiction)
  | .str a, .str b =>
    if h : a = b then isTrue (by rw [h]) else isFalse (by intro e; injection e; contradiction)
  | .raw a, .raw b =>
    if h : a = b then isTrue (by rw [h]) else isFalse (by intro e; injection e; contradiction)
  | .list a, .list b =>
    match decEqList a b with
    | isTrue h => isTrue (by rw [h])
    | isFalse h => isFalse (by intro e; injection e; contradiction)
  | .bool _, .int _ | .bool _, .float _ | .bool _, .address _ | .bool _, .network _
  | .bool _, .str _ | .bool _, .list _ | .bool _, .raw _
  | .int _, .bool _ | .int _, .float _ | .int _, .address _ | .int _, .network _
  | .int _, .str _ | .int _, .list _ | .int _, .raw _
  | .float _, .bool _ | .float _, .int _ | .float _, .address _ | .float _, .network _
  | .float _, .str _ | .float _, .list _ | .float _, .raw _
  | .address _, .bool _ | .address _, .int _ | .address _, .float _ | .address _, .network _
  | .address _, .str _ | .address _, .list _ | .address _, .raw _
  | .network _, .bool _ | .network _, .int _ | .network _, .float _ | .network _, .address _
  | .network _, .str _ | .network _, .list _ | .network _, .raw _
  | .str _, .bool _ | .str _, .int _ | .str _, .float _ | .str _, .address _
  | .str _, .network _ | .str _, .list _ | .str _, .raw _
  | .list _, .bool _ | .list _, .int _ | .list _, .float _ | .list _, .address _
  | .list _, .network _ | .list _, .str _ | .list _, .raw _
  | .raw _, .bool _ | .raw _, .int _ | .raw _, .float _ | .raw _, .address _
  | .raw _, .network _ | .raw _, .str _ | .raw _, .list _ => isFalse (by intro e; cases e)

/-- Equality of lists of literals can be decided. -/
def decEqList : (a b : List Literal) → Decidable (a = b)
  | [], [] => isTrue rfl
  | [], _ :: _ => isFalse (by intro e; cases e)
  | _ :: _, [] => isFalse (by intro e; cases e)
  | a :: as, b :: bs =>
    match decEq a b, decEqList as bs with
    | isTrue h, isTrue hs => isTrue (by rw [h, hs])
    | isFalse h, _ => isFalse (by intro e; injection e; contradiction)
    | _, isFalse hs => isFalse (by intro e; injection e; contradiction)

end

instance : DecidableEq Literal := decEq

/-! ## Text -/

/-- Doubles in messages: never an exponent, no point for whole numbers, ties upward. -/
def messageStyle : NumeralStyle where
  positional _ := true
  pointZero := false
  tie := .up
  special x := if x.isNaN then "NaN" else if x.negative then "-inf" else "inf"

mutual

/-- How messages show a literal: texts bare, lists in brackets, raw values as JSON. -/
def text : Literal → String
  | .bool b => if b then "true" else "false"
  | .int n => toString n.toInt
  | .float x => x.render messageStyle
  | .address a => a.text
  | .network n => n.text
  | .str s => s
  | .list items => "[" ++ String.intercalate ", " (texts items) ++ "]"
  | .raw j => j.compact

/-- The texts of several literals. -/
def texts : List Literal → List String
  | [] => []
  | l :: rest => text l :: texts rest

end

/-! ## As an integer -/

/-- The integer a literal stands for: an integer itself, a double without a fraction (the
    ends of the range stand for what is past them), or the text of an integer, blanks
    around it ignored. -/
def toInt64? : Literal → Option Int64
  | .int n => some n
  | .float x => if x.isWhole then some x.toInt64 else none
  | .str s => Text.toInt64? (Text.trim s)
  | _ => none

/-- The text of a text literal. -/
def str? : Literal → Option String
  | .str s => some s
  | _ => none

/-- What address text denotes, as a literal. -/
def ofAddressForm : Net.AddressForm → Literal
  | .address a => .address a
  | .network n => .network n

/-! ## Wire form -/

mutual

def toJson : Literal → Json
  | .bool b => .bool b
  | .int n => .ofInt64 n
  | .float x => .ofBinary64 x
  | .address a => .str a.text
  | .network n => .str n.text
  | .str s => .str s
  | .list items => .arr (toJsons items)
  | .raw j => j

/-- The wire forms of several literals. -/
def toJsons : List Literal → List Json
  | [] => []
  | l :: rest => toJson l :: toJsons rest

end

/-- A text of the wire: an address or a network if it reads as one. -/
def ofText (s : String) : Literal :=
  match IpAddress.ofText? s with
  | some a => .address a
  | none => match Network.ofText? s with
    | some n => .network n
    | none => .str s

/-- A number of the wire. -/
def ofNumber (n : Number) : Literal :=
  match n.toInt64? with
  | some i => .int i
  | none => .float n.toBinary64

mutual

/-- Reads the wire form; null and objects are kept raw. -/
def ofJson : Json → Literal
  | .bool b => .bool b
  | .num n => ofNumber n
  | .str s => ofText s
  | .arr elements => .list (ofJsons elements)
  | .null => .raw .null
  | .obj members => .raw (Json.obj members).canonical

/-- Reads several wire forms. -/
def ofJsons : List Json → List Literal
  | [] => []
  | j :: rest => ofJson j :: ofJsons rest

end

end Literal

end ProfileMigration
