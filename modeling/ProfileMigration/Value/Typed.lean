/-
  ProfileMigration.Value.Typed

  The values that parcel fields take:

    TypedValue              -- fixed, a reference by key, or inherited with an optional value
    TypedValue.objectId?    -- the object a reference points at
    TypedValue.toJson / ofJson? -- an object of `optionType` and `value`

  A reference whose key reads as an identifier points at another converted object; any other
  key names a device variable, and both are written between double braces.

  This models `TypedValue` with `object_id`, and the `serialize` and `deserialize` of a variable's
  name.
-/
import ProfileMigration.Identity.Uuid
import ProfileMigration.Value.Literal

namespace ProfileMigration

/-- The value of a parcel field. -/
inductive TypedValue where
  /-- A concrete value. -/
  | fixed (l : Literal)
  /-- A device variable, or another object by its identifier. -/
  | reference (key : String)
  /-- Not configured, with the default where it is known. -/
  | inherited (l? : Option Literal)
deriving DecidableEq, Inhabited

namespace TypedValue

/-- A fixed text. -/
def text (s : String) : TypedValue := .fixed (.str s)

/-- A fixed truth value. -/
def bool (b : Bool) : TypedValue := .fixed (.bool b)

/-- A fixed integer. -/
def int (n : Int64) : TypedValue := .fixed (.int n)

/-- A reference to another converted object. -/
def object (id : Uuid) : TypedValue := .reference id.text

/-- The literal of a fixed value, or the default of an inherited one. -/
def literal? : TypedValue → Option Literal
  | .fixed l => some l
  | .inherited l? => l?
  | .reference _ => none

/-- The object that a reference points at. -/
def objectId? : TypedValue → Option Uuid
  | .reference key => Uuid.ofText? key
  | .fixed _ | .inherited _ => none

/-! ## Wire form -/

/-- The tag of a value on the wire. -/
inductive Tag where
  | fixed
  | reference
  | inherited
deriving DecidableEq

/-- The text of a tag. -/
def Tag.text : Tag → String
  | .fixed => "global"
  | .reference => "variable"
  | .inherited => "default"

/-- The tag of a text. -/
def Tag.ofText? (s : String) : Option Tag :=
  if s = "global" then some .fixed
  else if s = "variable" then some .reference
  else if s = "default" then some .inherited
  else none

/-- The tag with a given number. -/
def Tag.ofNumber? (n : Int) : Option Tag :=
  if n = 0 then some .fixed
  else if n = 1 then some .reference
  else if n = 2 then some .inherited
  else none

/-- The tag of an object: its text, or an object with that key and null. -/
def Tag.ofMember? : Json → Option Tag
  | .str s => Tag.ofText? s
  | .obj [(key, .null)] => Tag.ofText? key
  | _ => none

/-- The tag of a list: its text, or its number where those are read. -/
def Tag.ofElement? (numbered : Bool) : Json → Option Tag
  | .str s => Tag.ofText? s
  | .num (.int n) => if numbered then Tag.ofNumber? n.val else none
  | _ => none

/-- A key between double braces. -/
def braced (key : String) : String := "\x7b\x7b" ++ key ++ "\x7d\x7d"

/-- Takes double braces off at both ends; a text without both stays as it is. -/
def unbraced (s : String) : String :=
  match s.toList with
  | '\x7b' :: '\x7b' :: rest =>
    -- The closing braces must be two of their own
    if 2 ≤ rest.length ∧ rest.drop (rest.length - 2) = ['\x7d', '\x7d'] then
      String.ofList (rest.take (rest.length - 2))
    else s
  | _ => s

def toJson : TypedValue → Json
  | .fixed l => .obj [("optionType", .str "global"), ("value", l.toJson)]
  | .reference key => .obj [("optionType", .str "variable"), ("value", .str (braced key))]
  | .inherited l? =>
    .obj [("optionType", .str "default"), ("value", .ofOption (l?.map Literal.toJson))]

/-- The value with a given tag and content; only an inherited value may lack its content. -/
def ofContent? : Tag → Option Json → Option TypedValue
  | .fixed, some j => some (.fixed (.ofJson j))
  | .reference, some (.str s) => some (.reference (unbraced s))
  | .inherited, none => some (.inherited none)
  | .inherited, some .null => some (.inherited none)
  | .inherited, some j => some (.inherited (some (.ofJson j)))
  | _, _ => none

/-- The values of all members with a key. -/
def valuesOf (key : String) (members : List (String × Json)) : List Json :=
  (members.filter (·.1 = key)).map Prod.snd

/-- Reads the wire form: an object with the tag and the content each at most once, other
    members ignored, or a list of the two, whose tag may be a number where those are read. -/
def ofJsonWith? (numbered : Bool) : Json → Option TypedValue
  | .obj members =>
    match valuesOf "optionType" members, valuesOf "value" members with
    | [tag], [] => (Tag.ofMember? tag).bind (ofContent? · none)
    | [tag], [content] => (Tag.ofMember? tag).bind (ofContent? · (some content))
    | _, _ => none
  | .arr [tag, content] => (Tag.ofElement? numbered tag).bind (ofContent? · (some content))
  | _ => none

/-- Reads the wire form of a value that stands by itself; its tag has no number. -/
def ofJson? : Json → Option TypedValue := ofJsonWith? false

end TypedValue

end ProfileMigration
