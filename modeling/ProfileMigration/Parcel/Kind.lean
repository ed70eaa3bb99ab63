/-
  ProfileMigration.Parcel.Kind

  The kinds of feature profiles and of the parcels in them:

    ProfileType         -- policy objects, system, transport, service
    ProfileHeader       -- the name and description of a profile
    ParcelType          -- the type tags of parcels, which are also path segments
    ParcelType.profile? -- the profile a parcel lives in, where its type decides it
    ChildMode           -- how a parcel is put under a parent

  This models `ProfileType` with `collection_path` and `profile_path`, `ParcelType` with `tag`,
  `profile_type` and `child_mode`, and `ChildMode`.
-/
import ProfileMigration.Wire.Record

namespace ProfileMigration

/-- A kind of feature profile. -/
inductive ProfileType where
  | policyObject
  | system
  | transport
  | service
deriving DecidableEq, Repr

namespace ProfileType

/-- Every kind of profile. -/
def all : List ProfileType := [policyObject, system, transport, service]

/-- The tag of a kind of profile. -/
def tag : ProfileType → String
  | policyObject => "policy-object"
  | system => "system"
  | transport => "transport"
  | service => "service"

/-- The kind of profile with a tag. -/
def ofTag? (s : String) : Option ProfileType := all.find? (·.tag = s)

/-- Where profiles of this kind are created. -/
def collectionPath (t : ProfileType) : String := "/v1/feature-profile/sdwan/" ++ t.tag

/-- Where a profile is found. -/
def profilePath (t : ProfileType) (id : Uuid) : String := t.collectionPath ++ "/" ++ id.text

def toJson (t : ProfileType) : Json := .str t.tag

def ofDocument : Wire.Reader ProfileType := Wire.name "a profile type" ofTag?

end ProfileType

/-- The name and description of a profile. -/
structure ProfileHeader where
  name : String
  description : Option String
deriving DecidableEq

/-- How a parcel is put under a parent. -/
inductive ChildMode where
  /-- Created under the path of the parent. -/
  | nested
  /-- Created on its own, then bound to the parent. -/
  | associate
deriving DecidableEq, Repr

namespace ChildMode

/-- The name of a mode. -/
def text : ChildMode → String
  | nested => "nested"
  | associate => "associate"

end ChildMode

/-- The type of a parcel. -/
inductive ParcelType where
  | dataPrefix
  | dataIpv6Prefix
  | asPath
  | standardCommunity
  | expandedCommunity
  | extCommunity
  | color
  | appList
  | basic
  | banner
  | logging
  | ntp
  | bfd
  | omp
  | wanVpn
  | managementVpn
  | lanVpn
  | ethernet
  | bgp
  | ospf
  | routePolicy
deriving DecidableEq, Repr

namespace ParcelType

/-- Every type of parcel. -/
def all : List ParcelType :=
  [dataPrefix, dataIpv6Prefix, asPath, standardCommunity, expandedCommunity, extCommunity, color,
    appList, basic, banner, logging, ntp, bfd, omp, wanVpn, managementVpn, lanVpn, ethernet, bgp,
    ospf, routePolicy]

/-- The tag of a type: its name on the wire and its path segment. -/
def tag : ParcelType → String
  | dataPrefix => "data-prefix"
  | dataIpv6Prefix => "data-ipv6-prefix"
  | asPath => "as-path"
  | standardCommunity => "standard-community"
  | expandedCommunity => "expanded-community"
  | extCommunity => "ext-community"
  | color => "color"
  | appList => "app-list"
  | basic => "basic"
  | banner => "banner"
  | logging => "logging"
  | ntp => "ntp"
  | bfd => "bfd"
  | omp => "omp"
  | wanVpn => "wan/vpn"
  | managementVpn => "management/vpn"
  | lanVpn => "lan/vpn"
  | ethernet => "interface/ethernet"
  | bgp => "routing/bgp"
  | ospf => "routing/ospf"
  | routePolicy => "route-policy"

/-- The type with a tag. -/
def ofTag? (s : String) : Option ParcelType := all.find? (·.tag = s)

/-- The profile a parcel lives in, where its type alone decides it. Interfaces, routing and
    route policies follow the VPN they belong to. -/
def profile? : ParcelType → Option ProfileType
  | dataPrefix | dataIpv6Prefix | asPath | standardCommunity | expandedCommunity | extCommunity
  | color | appList => some .policyObject
  | basic | banner | logging | ntp | bfd | omp => some .system
  | wanVpn | managementVpn => some .transport
  | lanVpn => some .service
  | ethernet | bgp | ospf | routePolicy => none

/-- How a parcel of this type is put under a parent. -/
def childMode : ParcelType → ChildMode
  | bgp | ospf => .associate
  | _ => .nested

def toJson (t : ParcelType) : Json := .str t.tag

def ofDocument : Wire.Reader ParcelType := Wire.name "a parcel type" ofTag?

end ParcelType

end ProfileMigration
