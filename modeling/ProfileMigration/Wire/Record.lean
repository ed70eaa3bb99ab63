/-
  ProfileMigration.Wire.Record

  Reading typed records from JSON:

    Mismatch            -- why a document cannot be read, and the words for it
    Reader              -- from a document to a typed value
    read                -- from a JSON value to a typed one
    Gathered            -- the fields of a record, read side by side
    Row.required / optional / defaulted -- one field
    record              -- a whole record

  A record is an object, unknown members ignored whatever they hold, or a list of its fields
  in order. All fields are read before one fault is reported: the one in the member that comes
  first, else the first missing field in order of declaration.

  `load_artifact` reads a `CollectedTree`, a `TransformResult` or a `PushResult` in this way, and
  `collect_tree` the rows of a `DataResponse`.
-/
import ProfileMigration.Identity.Uuid
import ProfileMigration.Json.Document
import ProfileMigration.Json.Printer
import ProfileMigration.Text.Quoted
import ProfileMigration.Time.Instant

namespace ProfileMigration.Wire

/-! ## Faults -/

/-- Why a document cannot be read. -/
inductive Mismatch where
  /-- A value of another kind. -/
  | kind (found : Document) (expected : String)
  /-- A list of another length. -/
  | length (found : Nat) (expected : String)
  | missing (key : String)
  | repeated (key : String)
  /-- A text that does not have the form it should. -/
  | malformed (expected : String)
  /-- Some part has no value. -/
  | unreadable

/-- How messages name a value of the wrong kind. -/
def shown : Document → String
  | .null => "null"
  | .bool b => "boolean `" ++ (if b then "true" else "false") ++ "`"
  | .num (.int n) => "integer `" ++ toString n.val ++ "`"
  | .num (.float x h) => "floating point `" ++ (Number.float x h).text ++ "`"
  | .str s => "string " ++ Text.inQuotes s
  | .arr _ => "sequence"
  | .obj _ => "map"
  | .unreadable => "unreadable value"

/-- The words for a fault. -/
def Mismatch.message : Mismatch → String
  | .kind found expected => "invalid type: " ++ shown found ++ ", expected " ++ expected
  | .length found expected => "invalid length " ++ toString found ++ ", expected " ++ expected
  | .missing key => "missing field `" ++ key ++ "`"
  | .repeated key => "duplicate field `" ++ key ++ "`"
  | .malformed expected => "invalid value, expected " ++ expected
  | .unreadable => "unreadable value"

/-! ## Plain values -/

/-- Reads a typed value. -/
abbrev Reader (α : Type) := Document → Except Mismatch α

/-- Reads a typed value from a JSON value. -/
def read {α : Type} (reader : Reader α) (j : Json) : Except Mismatch α := reader (.ofJson j)

/-- A text. -/
def text : Reader String
  | .str s => .ok s
  | d => .error (.kind d "a string")

/-- A truth value. -/
def bool : Reader Bool
  | .bool b => .ok b
  | d => .error (.kind d "a boolean")

/-- Any value, members in the order written. -/
def written : Reader Json := fun d =>
  match d.value? with
  | some j => .ok j
  | none => .error .unreadable

/-- Any value, in canonical form. -/
def json : Reader Json := fun d => (written d).map Json.canonical

/-- A text of a given form. -/
def textOf {α : Type} (expected : String) (read : String → Option α) : Reader α := fun d => do
  match read (← text d) with
  | some a => .ok a
  | none => .error (.malformed expected)

/-- An identifier. -/
def uuid : Reader Uuid := textOf "an identifier" Uuid.ofText?

/-- A point in time. -/
def instant : Reader Instant := textOf "a time" Instant.ofText?

/-- A name from a fixed list: its text, or an object with that key and null. -/
def name {α : Type} (expected : String) (read : String → Option α) : Reader α
  | .str s => textOf expected read (.str s)
  | .obj [(key, .null)] => textOf expected read (.str key)
  | d => .error (.kind d expected)

/-- A value for which null stands when there is none. -/
def nullable {α : Type} (read : Reader α) : Reader (Option α)
  | .null => .ok none
  | d => (read d).map some

/-- A list whose elements all read. -/
def list {α : Type} (read : Reader α) : Reader (List α)
  | .arr elements => elements.mapM read
  | d => .error (.kind d "a sequence")

/-! ## Records -/

/-- A record before its fields are read. -/
structure Row where
  /-- What messages call it. -/
  title : String
  /-- How many fields it has. -/
  arity : Nat
  content : List (String × Document) ⊕ List Document

/-- Fields read side by side: their values, or a fault and the place it was met at. -/
def Gathered (α : Type) := Except (Nat × Mismatch) α

namespace Gathered

/-- Joins two readings; of two faults the one met first stays. -/
def both {α β γ : Type} (f : α → β → γ) : Gathered α → Gathered β → Gathered γ
  | .ok a, .ok b => .ok (f a b)
  | .error m, .ok _ => .error m
  | .ok _, .error m => .error m
  -- Places tell which of two faults is met first
  | .error m, .error n => .error (if n.1 < m.1 then n else m)

instance : Applicative Gathered where
  pure a := .ok a
  seq f x := both (fun g a => g a) f (x ())

end Gathered

namespace Row

/-- How messages name a record given as a list of too few fields. -/
def expected (row : Row) : String :=
  "struct " ++ row.title ++ " with " ++ toString row.arity ++
    (if row.arity = 1 then " element" else " elements")

/-- The value of a field with its place: the members with its key, or the element at its
    index. -/
def found (row : Row) (index : Nat) (key : String) : List (Document × Nat) :=
  match row.content with
  | .inl members => (members.zipIdx.filter fun (m, _) => m.1 = key).map fun (m, i) => (m.2, i)
  | .inr elements => (elements[index]?).toList.map (·, index)

/-- What to report of a field that is not there. -/
def absent (row : Row) (index : Nat) (key : String) : Nat × Mismatch :=
  match row.content with
  | .inl members => (members.length + index, .missing key)
  | .inr _ => (index, .length index row.expected)

/-- Reads a field, with something to stand for it when it is not there. -/
def field {α : Type} (row : Row) (index : Nat) (key : String) (read : Reader α)
    (missing : Gathered α) : Gathered α :=
  match row.found index key with
  | [] => missing
  | [(d, place)] =>
    match read d with
    | .ok a => .ok a
    | .error m => .error (place, m)
  | _ :: (_, place) :: _ => .error (place, .repeated key)

/-- A field that must be there. -/
def required {α : Type} (row : Row) (index : Nat) (key : String) (read : Reader α) : Gathered α :=
  row.field index key read (.error (row.absent index key))

/-- A field that may be absent or null. -/
def optional {α : Type} (row : Row) (index : Nat) (key : String) (read : Reader α) :
    Gathered (Option α) :=
  row.field index key (nullable read) (.ok none)

/-- A field with a value to take when it is absent. -/
def defaulted {α : Type} (row : Row) (index : Nat) (key : String) (read : Reader α) (value : α) :
    Gathered α :=
  row.field index key read (.ok value)

/-- A list given for a record must not have more elements than the record has fields. -/
def surplus (row : Row) : Option Mismatch :=
  match row.content with
  | .inl _ => none
  | .inr elements =>
    if row.arity < elements.length then
      some (.length elements.length "fewer elements in array")
    else none

end Row

/-- Reads a record with a given title and number of fields. -/
def record {α : Type} (title : String) (arity : Nat) (fields : Row → Gathered α) : Reader α :=
  fun d => do
    let content ← match d with
      | .obj members => .ok (.inl members)
      | .arr elements => .ok (.inr elements)
      | _ => .error (.kind d ("struct " ++ title))
    let row : Row := ⟨title, arity, content⟩
    match fields row with
    | .error (_, m) => .error m
    | .ok a =>
      match row.surplus with
      | some m => .error m
      | none => .ok a

/-! ## Writing -/

/-- A member that is left out when there is nothing to write. -/
def member? (key : String) (value : Option Json) : List (String × Json) :=
  (value.map fun j => (key, j)).toList

/-- A list of values. -/
def ofList {α : Type} (write : α → Json) (xs : List α) : Json := .arr (xs.map write)

/-- A member that is left out when the list is empty. -/
def listMember? {α : Type} (key : String) (write : α → Json) (xs : List α) :
    List (String × Json) :=
  if xs.isEmpty then [] else [(key, ofList write xs)]

end ProfileMigration.Wire
