/-
  ProfileMigration.Template.PolicyList

  Policy lists:

    listType?       -- the parcel type of a legacy list type
    prefixEntry     -- a network, or one address, as base address and length
    listEntry       -- one entry of a list
    policyList      -- a whole list, which must not be empty

  Entries keep their order, and the first one that is not valid is reported.

  This models `PolicyListConverter`: `list_type`, `convert_entry`, `entry_text`, `prefix_entry`.
-/
import ProfileMigration.Parcel.Kind
import ProfileMigration.Template.Community
import ProfileMigration.Template.System

namespace ProfileMigration.Template

def policyListHints : Hints :=
  [("ipPrefix", .address), ("ipv6Prefix", .address), ("color", .enum tlocColors),
    ("community", .text), ("asPath", .text), ("app", .text), ("appFamily", .text),
    ("type", .text)]

/-- The types of lists and the parcel types that they become. -/
def listTypes : List (String × ParcelType) :=
  [("dataPrefix", .dataPrefix), ("dataIpv6Prefix", .dataIpv6Prefix), ("asPath", .asPath),
    ("community", .standardCommunity), ("expandedCommunity", .expandedCommunity),
    ("extCommunity", .extCommunity), ("color", .color), ("app", .appList)]

/-- The parcel type of a list type. -/
def listType? (kind : String) : Option ParcelType := listTypes.lookup kind

/-! ## Entries -/

/-- The text of an entry, which no device variable can stand for. -/
def entryText (entry : FieldMap) (field : String) : Converted String := do
  match ← required entry field with
  | .fixed l => .ok l.text
  | _ => .error (.unsupported field "policy list entries must be literal values")

/-- The network of an entry; an address stands for itself alone. -/
def entryNetwork (entry : FieldMap) (field : String) : Converted Network := do
  match ← required entry field with
  | .fixed (.network n) => .ok n
  | .fixed (.address a) => .ok (.single a)
  | other =>
    let shown := (other.literal?.map Literal.text).getD ""
    .error (.unsupported field ("'" ++ shown ++ "' is not a prefix"))

/-- Base address and prefix length of an entry, which must be of the given family. -/
def prefixEntry (entry : FieldMap) (field : String) (newer : Bool) :
    Converted (String × Int64) := do
  let network ← entryNetwork entry field
  if network.isV6 = newer then .ok (network.base.text, Int64.ofNat network.length)
  else .error (.unsupported field ("'" ++ network.text ++ "' has the wrong address family"))

/-- The text of an entry, if it is of a certain form. -/
def checkedText (entry : FieldMap) (field : String) (valid : String → Bool)
    (complaint : String → String) : Converted String := do
  let s ← entryText entry field
  if valid s then .ok s else .error (.unsupported field (complaint s))

/-- An item with one text. -/
def textItem (name s : String) : FieldMap := [(name, .text s)]

/-- A single entry of a list whose entries become items. -/
def listEntry (type : ParcelType) (entry : FieldMap) : Converted FieldMap :=
  match type with
  | .dataPrefix => do
    let (address, length) ← prefixEntry entry "ipPrefix" false
    return assemble [("ipv4Address", some (.text address)),
      ("ipv4PrefixLength", some (.int length))]
  | .dataIpv6Prefix => do
    let (address, length) ← prefixEntry entry "ipv6Prefix" true
    return assemble [("ipv6Address", some (.text address)),
      ("ipv6PrefixLength", some (.int length))]
  | .asPath => (entryText entry "asPath").map (textItem "asPathList")
  | .standardCommunity =>
    (checkedText entry "community" Community.isStandard
      fun s => "'" ++ s ++ "' is not a standard community").map (textItem "standardCommunity")
  | .extCommunity =>
    (checkedText entry "community" Community.isExtended
      fun s => "'" ++ s ++ "' is not an extended community").map (textItem "extCommunity")
  | .color =>
    (checkedText entry "color" tlocColors.contains
      fun s => "unknown color '" ++ s ++ "'").map (textItem "color")
  | .appList =>
    -- The family wins even if it says nothing, and is then missing
    if (entry.value? "appFamily").isSome then
      (entryText entry "appFamily").map (textItem "appFamily")
    else (entryText entry "app").map (textItem "app")
  | other => .error (.unsupported "type" (other.tag ++ " is not a list"))

/-! ## Lists -/

/-- The parcel type that the definition of a list asks for. -/
def listTypeOf (values : FieldMap) : Converted ParcelType :=
  match ((values.value? "type").bind TypedValue.literal?).bind Literal.str? with
  | none => .error (.missing "type")
  | some kind =>
    match listType? kind with
    | some type => .ok type
    | none => .error (.notConvertible kind)

/-- The field tree of a list of a given type. Expanded communities are one list of patterns. -/
def listData (type : ParcelType) (entries : List FieldMap) : Converted FieldMap :=
  if type = .expandedCommunity then do
    let patterns ← entries.mapM (entryText · "community")
    return [("expandedCommunityList", .value (.fixed (.list (patterns.map .str))))]
  else do
    let rows ← entries.mapM (listEntry type)
    return [("entries", .items rows)]

/-- A policy list. -/
def policyList (values : FieldMap) : Converted (ParcelType × FieldMap) := do
  let type ← listTypeOf values
  let entries := values.items "entries"
  if entries.isEmpty then
    .error (.unsupported "entries" "a policy list needs at least one entry")
  else return (type, ← listData type entries)

end ProfileMigration.Template
