/-
  ProfileMigration.Json.Parser

  Reads a JSON document from its tokens with a stack of open containers:

    Frame               -- an open container and what it holds so far
    Reading             -- what may follow next
    Reading.step        -- one token
    Document.ofText?    -- the document of a well-formed text
    Json.ofText?        -- the canonical value of a text

  Containers may nest up to 127 deep; deeper ones have no value.

  `load_artifact` and the answers of a manager are read with it.
-/
import ProfileMigration.Json.Document
import ProfileMigration.Json.Token

namespace ProfileMigration.Json

/-- An open container; what it holds is kept in reverse. -/
inductive Frame where
  | array (before : List Document)
  | object (before : List (Option String × Document)) (key? : Option String)

/-- What may follow, given the containers still open. -/
inductive Reading where
  /-- A value. -/
  | value (stack : List Frame)
  /-- A value or the end of the array just opened. -/
  | firstElement (stack : List Frame)
  /-- A key or the end of the object just opened. -/
  | firstKey (stack : List Frame)
  /-- A key. -/
  | nextKey (stack : List Frame) (before : List (Option String × Document))
  /-- The colon after a key. -/
  | colon (stack : List Frame) (before : List (Option String × Document)) (key? : Option String)
  /-- A comma, the end of the innermost container, or the end of the document. -/
  | ended (stack : List Frame) (last : Document)

/-- How deep containers may nest. -/
def nestingLimit : Nat := 127

namespace Reading

/-- The start of a value. -/
def openValue (stack : List Frame) : Token → Option Reading
  | .null => some (.ended stack .null)
  | .bool b => some (.ended stack (.bool b))
  | .num n? => some (.ended stack ((n?.map .num).getD .unreadable))
  | .str s? => some (.ended stack ((s?.map .str).getD .unreadable))
  | .openArray => some (.firstElement stack)
  | .openObject => some (.firstKey stack)
  | _ => none

/-- One token. -/
def step : Reading → Token → Option Reading
  | .value stack, token => openValue stack token
  | .firstElement stack, .closeArray => some (.ended stack (.arr []))
  | .firstElement stack, token => openValue (.array [] :: stack) token
  | .firstKey stack, .closeObject => some (.ended stack (.obj []))
  | .firstKey stack, .str key? => some (.colon stack [] key?)
  | .nextKey stack before, .str key? => some (.colon stack before key?)
  | .colon stack before key?, .colon => some (.value (.object before key? :: stack))
  | .ended (.array before :: stack) last, .comma => some (.value (.array (last :: before) :: stack))
  | .ended (.array before :: stack) last, .closeArray =>
    some (.ended stack (.arr (last :: before).reverse))
  | .ended (.object before key? :: stack) last, .comma =>
    some (.nextKey stack ((key?, last) :: before))
  | .ended (.object before key? :: stack) last, .closeObject =>
    some (.ended stack (.ofMembers ((key?, last) :: before).reverse))
  | _, _ => none

/-- The tokens from here to the end of the document. -/
def run (reading : Reading) : List Token → Option Document
  | [] => match reading with
    | .ended [] last => some last
    | _ => none
  | token :: tokens => (reading.step token).bind (·.run tokens)

end Reading

end ProfileMigration.Json

namespace ProfileMigration

/-- The document of a well-formed text. -/
def Document.ofText? (text : String) : Option Document :=
  ((Json.Token.ofText? text.toList).bind (Json.Reading.value []).run).map
    (·.within Json.nestingLimit)

/-- The canonical value of a text, when every part of it has one. -/
def Json.ofText? (text : String) : Option Json :=
  ((Document.ofText? text).bind Document.value?).map canonical

end ProfileMigration
