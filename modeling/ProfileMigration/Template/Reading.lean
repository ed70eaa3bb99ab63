/-
  ProfileMigration.Template.Reading

  Reading the fields of a normalised definition as the values a parcel needs:

    toBool / toInt / toText     -- a value as the target's truth value, integer or text
    configured?                 -- the value at a path, unless it says nothing
    required / orDefault        -- and what stands for it otherwise
    intOr, boolOr, textOr, …    -- both together
    fixedText?                  -- a text that decides the shape of the parcel
    reference                   -- a reference to an object by its legacy id
    assemble                    -- a field tree from paths and values

  Device variables pass every coercion; only what decides a shape must be known.

  `toBool`, `toInt` and `toText` model `to_bool`, `to_int` and `to_text`, with the spellings of
  `BOOL_ENCODINGS`; `configured?` models `opt`; the others model `required`, `or_default`, `int_or`,
  `bool_or`, `text_opt`, `fixed_str`, `reference`, `put` and their like.
-/
import ProfileMigration.Field.Path
import ProfileMigration.Legacy.Context
import ProfileMigration.Template.Failure

namespace ProfileMigration.Template

/-! ## Coercions -/

/-- How legacy fields spell a truth value, beside `true` and `false`. -/
inductive TruthSpelling where
  | plain
  /-- One and zero. -/
  | oneZero
  /-- `enable` and `disable`. -/
  | enableDisable
deriving DecidableEq

/-- The spelling that a field uses, by the last segment of its path. -/
def truthSpelling (field : String) : TruthSpelling :=
  -- The same field may sit at any depth
  let leaf := Path.leaf field
  if leaf = "send-community" then .oneZero
  else if leaf = "nat" ∨ leaf = "pmtu-discovery" then .enableDisable
  else .plain

/-- The truth value of a text that any field may use. -/
def plainTruth? (s : String) : Option Bool :=
  if Text.sameIgnoringCase s "true" then some true
  else if Text.sameIgnoringCase s "false" then some false
  else none

/-- The truth value of a literal in a given spelling. -/
def truth? : TruthSpelling → Literal → Option Bool
  | _, .bool b => some b
  | .oneZero, .int n => if n = 1 then some true else if n = 0 then some false else none
  | .oneZero, .str s =>
    if s = "1" then some true else if s = "0" then some false else plainTruth? s
  | .enableDisable, .str s =>
    if Text.sameIgnoringCase s "enable" then some true
    else if Text.sameIgnoringCase s "disable" then some false
    else plainTruth? s
  | _, .str s => plainTruth? s
  | _, _ => none

/-- Applies a reading of literals to a value; variables and unknown defaults pass. -/
def coerceWith (read : Literal → Converted Literal) : TypedValue → Converted TypedValue
  | .fixed l => (read l).map .fixed
  | .inherited (some l) => (read l).map fun l => .inherited (some l)
  | .inherited none => .ok (.inherited none)
  | .reference key => .ok (.reference key)

/-- A value as a truth value, in the spelling of its field. -/
def toBool (field : String) : TypedValue → Converted TypedValue :=
  coerceWith fun l =>
    match truth? (truthSpelling field) l with
    | some b => .ok (.bool b)
    | none => .error (.ambiguous field l.text)

/-- A value as an integer. -/
def toInt (field : String) : TypedValue → Converted TypedValue :=
  coerceWith fun l =>
    match l.toInt64? with
    | some n => .ok (.int n)
    | none => .error (.unsupported field ("'" ++ l.text ++ "' is not a number"))

/-- A fixed value as text; texts and lists stay as they are. -/
def toText : TypedValue → TypedValue
  | .fixed (.str s) => .fixed (.str s)
  | .fixed (.list items) => .fixed (.list items)
  | .fixed l => .fixed (.str l.text)
  | other => other

/-! ## Fields -/

/-- Whether a value says nothing: an unknown default, or the empty text. -/
def saysNothing : TypedValue → Bool
  | .inherited none => true
  | .fixed (.str s) => s = ""
  | _ => false

/-- The value at a path, unless it says nothing. -/
def configured? (values : FieldMap) (path : String) : Option TypedValue :=
  (values.value? path).filter fun v => !saysNothing v

/-- The value at a path, which must be there. -/
def required (values : FieldMap) (path : String) : Converted TypedValue :=
  match configured? values path with
  | some v => .ok v
  | none => .error (.missing path)

/-- The value at a path, or a fixed literal. -/
def orDefault (values : FieldMap) (path : String) (default : Literal) : TypedValue :=
  (configured? values path).getD (.fixed default)

/-- The value at a path as an integer, if there is one. -/
def intOpt (values : FieldMap) (path : String) : Converted (Option TypedValue) :=
  match configured? values path with
  | some v => (toInt path v).map some
  | none => .ok none

/-- The value at a path as an integer, or a given one. -/
def intOr (values : FieldMap) (path : String) (default : Int64) : Converted TypedValue :=
  toInt path (orDefault values path (.int default))

/-- The value at a path as an integer, which must be there. -/
def intRequired (values : FieldMap) (path : String) : Converted TypedValue :=
  (required values path).bind (toInt path)

/-- The value at a path as a truth value, or a given one. -/
def boolOr (values : FieldMap) (path : String) (default : Bool) : Converted TypedValue :=
  toBool path (orDefault values path (.bool default))

/-- The value at a path as text, if there is one. -/
def textOpt (values : FieldMap) (path : String) : Option TypedValue :=
  (configured? values path).map toText

/-- The value at a path as text, which must be there. -/
def textRequired (values : FieldMap) (path : String) : Converted TypedValue :=
  (required values path).map toText

/-- The value at a path, or a given text. -/
def textOr (values : FieldMap) (path default : String) : TypedValue :=
  orDefault values path (.str default)

/-- The text at a path that decides the shape of a parcel: a device variable cannot. -/
def fixedText? (values : FieldMap) (path : String) : Converted (Option String) :=
  match configured? values path with
  | none => .ok none
  | some (.fixed l) | some (.inherited (some l)) => .ok (some l.text)
  | some _ => .error (.unsupported path "a device variable cannot select the target shape")

/-- The text at a path that decides the shape of a parcel, reported under a longer path when
    it is missing. -/
def fixedText (values : FieldMap) (path reported : String) : Converted String := do
  match ← fixedText? values path with
  | some s => .ok s
  | none => .error (.missing reported)

/-- A reference to an object that has been converted. -/
def reference (ctx : Context) (category : Category) (origin : String) : Converted Field :=
  match ctx.resolve category origin with
  | some id => .ok (.objectRef id)
  | none => .error (.unresolved category origin)

/-! ## Assembling -/

/-- Writes a value at a path. -/
def put (data : FieldMap) (path : String) (v : TypedValue) : FieldMap := data.set path (.value v)

/-- Writes values at paths, one after the other, leaving out those that are not there. -/
def assemble (entries : List (String × Option TypedValue)) : FieldMap :=
  entries.foldl (fun data (path, v?) => match v? with
    | some v => put data path v
    | none => data) []

/-- Adds a list of items under a name, unless it is empty. -/
def withItems (data : FieldMap) (name : String) (rows : List FieldMap) : FieldMap :=
  if rows.isEmpty then data else Keyed.insert name (.items rows) data

end ProfileMigration.Template
