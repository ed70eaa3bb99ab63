/-
  ProfileMigration.Template.Vpn

  Feature templates of VPNs and their interfaces:

    addressAndMask      -- a network as the two texts the target wants
    vpnType             -- which kind of VPN an identifier makes
    vpn                 -- name servers and static routes of a VPN
    ethernet            -- an interface of a VPN

  This models `split_prefix`, `VpnConverter` with `parcel_type`, and
  `EthernetInterfaceConverter`.
-/
import ProfileMigration.Parcel.Kind
import ProfileMigration.Template.System

namespace ProfileMigration.Template

/-- Which part of a network's address is kept. -/
inductive AddressPart where
  /-- The address it was written with. -/
  | host
  /-- The address with the bits behind the prefix cleared. -/
  | base
deriving DecidableEq

/-- How messages show a literal that may be missing. -/
def shownLiteral : Option Literal → String
  | some l => "Some(" ++ Text.inQuotes l.text ++ ")"
  | none => "None"

/-- A network as an address and a mask. A device variable goes into both, with a mark on the
    name for the mask. -/
def addressAndMask (field : String) (part : AddressPart) :
    TypedValue → Converted (TypedValue × TypedValue)
  | .fixed (.network (.v4 a n)) =>
    let m := Net.mask 32 n
    let kept := match part with
      | .host => a
      | .base => a &&& m
    .ok (.text (Net.ipv4Text kept), .text (Net.ipv4Text m))
  | .fixed (.network (.v6 ..)) => .error (.unsupported field "IPv6 prefix in an IPv4 field")
  | .reference name => .ok (.reference name, .reference (name ++ "_mask"))
  | other =>
    .error (.unsupported field ("expected address/length, got " ++ shownLiteral other.literal?))

/-! ## VPNs -/

/-- The two roles of name servers. -/
def dnsRoles : List String := ["primary", "secondary"]

def vpnHints : Hints :=
  [("vpn-id", .integer), ("name", .text), ("role", .enum dnsRoles), ("dns-addr", .address),
    ("distance", .integer), ("prefix", .address), ("address", .address)]

/-- The kind of VPN: 0 is the transport, 512 the management VPN, any other a service. -/
def vpnType : TypedValue → Converted ParcelType
  | .fixed (.int n) =>
    .ok (if n = 0 then .wanVpn else if n = 512 then .managementVpn else .lanVpn)
  | _ => .error (.unsupported "vpn-id" "a device variable cannot select the VPN kind")

/-- Adds a name server in the place of its role. -/
def withNameServer (data dns : FieldMap) : Converted FieldMap := do
  let role := ((configured? dns "role").bind TypedValue.literal?).bind Literal.str?
  -- Any other role counts as the primary one
  let place := if role = some "secondary" then "dnsIpv4/secondaryDnsAddressIpv4"
    else "dnsIpv4/primaryDnsAddressIpv4"
  return put data place (toText (← required dns "dns-addr"))

/-- A next hop of a route. -/
def nextHop (hop : FieldMap) : Converted FieldMap := do
  let address ← textRequired hop "address"
  let distance ← intOr hop "distance" 1
  return assemble [("address", address), ("distance", distance)]

/-- A static route: to next hops, or to nowhere. -/
def staticRoute (route : FieldMap) : Converted FieldMap := do
  let (address, mask) ← addressAndMask "ip/route/prefix" .base (← required route "prefix")
  let data := assemble [("prefix/address", address), ("prefix/mask", mask)]
  -- Next hops win over the null interface
  let hops := route.items "next-hop"
  if !hops.isEmpty then
    return FieldMap.set data "oneOfIpRoute/nextHopContainer/nextHop"
      (.items (← hops.mapM nextHop))
  else if (route.value? "null0").isSome then
    return put data "oneOfIpRoute/null0" (← boolOr route "null0" true)
  else .error (.missing "ip/route/next-hop")

/-- A VPN with its name servers and static routes. -/
def vpn (values : FieldMap) : Converted (ParcelType × FieldMap) := do
  let id ← intRequired values "vpn-id"
  let type ← vpnType id
  let data := assemble [("vpnId", id), ("name", textOpt values "name")]
  let data ← (values.items "dns").foldlM withNameServer data
  let routes ← (values.items "ip/route").mapM staticRoute
  return (type, withItems data "ipv4Route" routes)

/-! ## Interfaces -/

def ethernetHints : Hints :=
  [("if-name", .text), ("description", .text), ("mtu", .integer), ("dhcp-distance", .integer),
    ("address", .address), ("color", .enum tlocColors)]

/-- How an interface gets its address: from a server, or fixed, or not at all. -/
def interfaceAddress (values : FieldMap) : Converted (List (String × Option TypedValue)) := do
  let dynamic ← boolOr values "ip/dhcp-client" false
  -- A device variable leaves it open, and then the address is written
  if dynamic = .bool true then
    return [("intfIpAddress/dynamic/dynamicDhcpDistance", ← intOr values "ip/dhcp-distance" 1)]
  else match configured? values "ip/address" with
    | some v =>
      let (address, mask) ← addressAndMask "ip/address" .host v
      return [("intfIpAddress/static/staticIpV4AddressPrimary/ipAddress", address),
        ("intfIpAddress/static/staticIpV4AddressPrimary/subnetMask", mask)]
    | none => return []

/-- What an interface is in the overlay: the end of a tunnel, or nothing. -/
def interfaceTunnel (values : FieldMap) : Converted (List (String × Option TypedValue)) := do
  if values.has "tunnel-interface" then
    return [("tunnelInterface", some (.bool true)),
      ("tunnel/color", textOr values "tunnel-interface/color" "default"),
      ("nat", ← boolOr values "nat" false)]
  else return [("tunnelInterface", some (.bool false))]

/-- An interface of a VPN. -/
def ethernet (values : FieldMap) : Converted FieldMap := do
  let name ← textRequired values "if-name"
  let shutdown ← boolOr values "shutdown" true
  let mtu ← intOr values "mtu" 1500
  let address ← interfaceAddress values
  let tunnel ← interfaceTunnel values
  return assemble ([("interfaceName", some name), ("description", textOpt values "description"),
    ("shutdown", some shutdown), ("mtu", some mtu)] ++ address ++ tunnel)

end ProfileMigration.Template
