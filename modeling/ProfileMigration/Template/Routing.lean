/-
  ProfileMigration.Template.Routing

  Feature templates of routing protocols, and route policies:

    withRoutePolicies   -- binds the policies that an entry names, one to a slot
    bgp, ospf           -- the two protocols
    routePolicy         -- matches and actions of a policy, by sequence

  This models `route_policies`, `BgpConverter`, `OspfConverter`, and `RoutePolicyConverter` with
  `match_entry` and `set_action`.
-/
import ProfileMigration.Template.System

namespace ProfileMigration.Template

/-- The two directions of routes. -/
def directions : List String := ["in", "out"]

/-- The address families of neighbours. -/
def families : List String := ["ipv4-unicast", "ipv6-unicast"]

/-- The actions of policies. -/
def actions : List String := ["accept", "reject", "set"]

/-! ## Bound policies -/

/-- Where the policies of an entry go. -/
structure PolicySlots where
  inbound : String
  /-- Absent where the target takes no policy for routes it sends. -/
  outbound : Option String

/-- The slot of a direction; inbound where none is given. -/
def PolicySlots.slot (slots : PolicySlots) : Option String → Converted String
  | none => .ok slots.inbound
  | some direction =>
    if direction = "in" then .ok slots.inbound
    else if direction = "out" then
      match slots.outbound with
      | some slot => .ok slot
      | none =>
        .error (.unsupported "route-policy/direction" "no outbound route policy on this target")
    else
      .error (.unsupported "route-policy/direction" ("unknown direction '" ++ direction ++ "'"))

/-- Binds one policy to its slot, which must be free. -/
def withRoutePolicy (ctx : Context) (slots : PolicySlots) (data policy : FieldMap) :
    Converted FieldMap := do
  let origin ← fixedText policy "pol-name" "route-policy/pol-name"
  let slot ← slots.slot (← fixedText? policy "direction")
  if data.has slot then
    .error (.unsupported "route-policy" ("more than one policy for '" ++ slot ++ "'"))
  else return FieldMap.set data slot (← reference ctx .policyDefinition origin)

/-- Binds every policy that an entry names. -/
def withRoutePolicies (ctx : Context) (slots : PolicySlots) (values data : FieldMap) :
    Converted FieldMap :=
  (values.items "route-policy").foldlM (withRoutePolicy ctx slots) data

/-! ## Border gateway protocol -/

def bgpHints : Hints :=
  [("as-num", .integer), ("remote-as", .integer), ("router-id", .address), ("address", .address),
    ("description", .text), ("pol-name", .text), ("direction", .enum directions),
    ("family-type", .enum families)]

/-- The slots of an address family. -/
def familySlots : PolicySlots := ⟨"inRoutePolicy", some "outRoutePolicy"⟩

/-- An address family of a neighbour. -/
def addressFamily (ctx : Context) (family : FieldMap) : Converted FieldMap := do
  let type ← required family "family-type"
  withRoutePolicies ctx familySlots family (assemble [("familyType", type)])

/-- A neighbour. -/
def neighbor (ctx : Context) (values : FieldMap) : Converted FieldMap := do
  let address ← textRequired values "address"
  let remote ← intRequired values "remote-as"
  let shutdown ← boolOr values "shutdown" false
  let communities ← boolOr values "send-community" true
  let rows ← (values.items "address-family").mapM (addressFamily ctx)
  return withItems
    (assemble [("address", address), ("remoteAs", remote),
      ("description", textOpt values "description"), ("shutdown", shutdown),
      ("sendCommunity", communities)])
    "addressFamily" rows

/-- The border gateway protocol. -/
def bgp (ctx : Context) (values : FieldMap) : Converted FieldMap := do
  let number ← intRequired values "as-num"
  let neighbors ← (values.items "neighbor").mapM (neighbor ctx)
  return withItems (assemble [("asNum", number), ("routerId", textOpt values "router-id")])
    "neighbor" neighbors

/-! ## Open shortest path first -/

def ospfHints : Hints :=
  [("router-id", .address), ("external", .integer), ("inter-area", .integer),
    ("intra-area", .integer), ("a-num", .integer), ("hello-interval", .integer),
    ("cost", .integer), ("name", .text), ("pol-name", .text), ("direction", .enum directions)]

/-- The one slot of the protocol. -/
def ospfSlots : PolicySlots := ⟨"routePolicy", none⟩

/-- An interface of an area. -/
def areaInterface (values : FieldMap) : Converted FieldMap := do
  let name ← textRequired values "name"
  let hello ← intOr values "hello-interval" 10
  let cost ← intOpt values "cost"
  return assemble [("ifName", name), ("helloInterval", hello), ("cost", cost)]

/-- An area. -/
def area (values : FieldMap) : Converted FieldMap := do
  let number ← intRequired values "a-num"
  let interfaces ← (values.items "interface").mapM areaInterface
  return Keyed.insert "interface" (.items interfaces) (assemble [("aNum", number)])

/-- The protocol, below the group that the definition keeps it in. -/
def ospf (ctx : Context) (values : FieldMap) : Converted FieldMap := do
  let group : FieldMap := (values.group? "ospf").getD []
  let external ← intOr group "distance/external" 110
  let inter ← intOr group "distance/inter-area" 110
  let intra ← intOr group "distance/intra-area" 110
  let areas ← (group.items "area").mapM area
  let data := withItems
    (assemble [("routerId", textOpt group "router-id"), ("externalDistance", external),
      ("interAreaDistance", inter), ("intraAreaDistance", intra)])
    "area" areas
  withRoutePolicies ctx ospfSlots group data

/-! ## Route policies -/

def routePolicyHints : Hints :=
  [("sequenceId", .integer), ("sequenceName", .text), ("baseAction", .enum actions),
    ("type", .enum actions), ("field", .text), ("ref", .text), ("value", .text)]

/-- The slot of a match that names a policy list. -/
def listSlot? (field : String) : Option String :=
  if field = "address" then some "ipv4Address"
  else if field = "ipv6Address" then some "ipv6Address"
  else if field = "asPath" then some "asPathList"
  else if field = "community" then some "communityList"
  else if field = "extCommunity" then some "extCommunityList"
  else none

/-- Adds one match of a sequence: a policy list, or a number. -/
def withMatch (ctx : Context) (data entry : FieldMap) : Converted FieldMap := do
  let field ← fixedText entry "field" "match/entries/field"
  match listSlot? field with
  | some slot =>
    let origin ← fixedText entry "ref" "match/entries/ref"
    return FieldMap.set data slot (← reference ctx .policyList origin)
  | none =>
    if field ∈ ["localPreference", "metric", "ompTag"] then
      return put data field (← intRequired entry "value")
    else
      .error (.unsupported "match/entries/field" ("no route-policy match for '" ++ field ++ "'"))

/-- Adds one parameter that an action sets. -/
def withParameter (data parameter : FieldMap) : Converted FieldMap := do
  let field ← fixedText parameter "field" "actions/parameter/field"
  if field ∈ ["localPreference", "metric", "ompTag", "weight"] then
    return put data field (← intRequired parameter "value")
  else if field = "community" then
    return put data "community" (← textRequired parameter "value")
  else .error (.unsupported "actions/parameter/field" ("cannot set '" ++ field ++ "'"))

/-- Adds the parameters of one action; only setting has a counterpart. -/
def withAction (data action : FieldMap) : Converted FieldMap := do
  let type ← fixedText action "type" "actions/type"
  if type = "set" then (action.items "parameter").foldlM withParameter data
  else
    .error (.unsupported "actions/type" ("action '" ++ type ++ "' has no route-policy counterpart"))

/-- One item that holds everything, unless there is nothing to hold. -/
def withSingle (data : FieldMap) (name : String) (row : FieldMap) : FieldMap :=
  withItems data name (if row.isEmpty then [] else [row])

/-- A sequence of a policy. -/
def policySequence (ctx : Context) (values : FieldMap) : Converted FieldMap := do
  let id ← intRequired values "sequenceId"
  let entries ← (values.items "match/entries").foldlM (withMatch ctx) []
  let sets ← (values.items "actions").foldlM withAction []
  let data := assemble [("sequenceId", id), ("sequenceName", textOpt values "sequenceName"),
    ("baseAction", textOr values "baseAction" "reject"), ("protocol", some (.text "IPV4"))]
  return withSingle (withSingle data "matchEntries" entries) "actions" sets

/-- A route policy. -/
def routePolicy (ctx : Context) (values : FieldMap) : Converted FieldMap := do
  let sequences ← (values.items "sequences").mapM (policySequence ctx)
  return Keyed.insert "sequences" (.items sequences)
    (assemble [("defaultAction", textOr values "defaultAction/type" "reject")])

end ProfileMigration.Template
