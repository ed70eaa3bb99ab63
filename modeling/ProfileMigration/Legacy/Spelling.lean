/-
  ProfileMigration.Legacy.Spelling

  Typing of single legacy values, by declaration or by their looks:

    scalarText?     -- the text of a value that has one
    coerceScalar    -- a value as its declared kind, if it can be read so
    coerce          -- the same for each element of a list
    inferText       -- a text by its looks: truth value, address, or itself
    listLiteral?    -- lists of integers and lists of texts
    leaf            -- the literal of any leaf

  `coerceScalar` and `coerce` model `coerce_scalar` and `coerce_declared`; `inferText`,
  `listLiteral?` and `leaf` model `infer_str`, `normalize_list` and `normalize_leaf`.
-/
import ProfileMigration.Legacy.Hint

namespace ProfileMigration.Legacy

/-- The text of a string without the blanks around it, or of a number or truth value. -/
def scalarText? : Json → Option String
  | .str s => some (Text.trim s)
  | .num n => some n.text
  | .bool b => some (if b then "true" else "false")
  | _ => none

/-- A number as an integer: exact where it fits, else a double without a fraction, which the
    ends of the range bound. -/
def integerOf (n : Number) : Option Literal :=
  match n.toInt64? with
  | some i => some (.int i)
  | none => if n.toBinary64.isWhole then some (.int n.toBinary64.toInt64) else none

/-- The truth value of a text. -/
def truthOf (s : String) : Option Literal :=
  if Text.sameIgnoringCase s "true" then some (.bool true)
  else if Text.sameIgnoringCase s "false" then some (.bool false)
  else none

/-- A value as its declared kind. -/
def coerceScalar (kind : FieldKind) (j : Json) : Option Literal :=
  match kind with
  | .enum members => do
    let s ← scalarText? j
    (members.find? (Text.sameIgnoringCase · s)).map .str
  | .integer =>
    match j with
    | .num n => integerOf n
    | _ => ((scalarText? j).bind Text.toInt64?).map .int
  | .float =>
    match j with
    | .num n => some (.float n.toBinary64)
    | _ => ((scalarText? j).bind Binary64.ofText?).map .float
  | .bool =>
    match j with
    | .bool b => some (.bool b)
    | _ => (scalarText? j).bind truthOf
  | .address => ((scalarText? j).bind Net.parseAddress?).map Literal.ofAddressForm
  | .text => (scalarText? j).map .str

/-- A value as its declared kind; a list needs every element to be of that kind. -/
def coerce (kind : FieldKind) : Json → Option Literal
  | .arr elements => (elements.mapM (coerceScalar kind)).map .list
  | j => coerceScalar kind j

/-- A text by its looks. -/
def inferText (s : String) : Literal :=
  match truthOf s with
  | some l => l
  | none => match Net.parseAddress? s with
    | some form => .ofAddressForm form
    | none => .str s

/-- A list of signed 64-bit integers, or a list of texts. -/
def listLiteral? (elements : List Json) : Option Literal :=
  match elements.mapM Json.int64? with
  | some ns => some (.list (ns.map .int))
  | none => (elements.mapM Json.text?).map fun ss => .list (ss.map .str)

/-- A value without a declaration; what no rule recognises stays raw. -/
def undeclared : Json → Literal
  | .arr elements => (listLiteral? elements).getD (.raw (.arr elements))
  | .str s => inferText s
  | .bool b => .bool b
  | .num n => Literal.ofNumber n
  | .null => .raw .null
  | .obj members => .raw (.obj members)

/-- The literal of a leaf under a given name: its declared kind if it can be read so, else by
    its looks. -/
def leaf (hints : Hints) (key : String) (j : Json) : Literal :=
  match (hints.kind? key).bind (coerce · j) with
  | some l => l
  | none => undeclared j

end ProfileMigration.Legacy
