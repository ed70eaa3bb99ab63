/-
  ProfileMigration.Template.Conversion

  The conversion of legacy objects into parcels:

    Template        -- the declared kinds of a definition's fields, and its conversion
    template?       -- the template of a legacy type
    convert         -- an object as a parcel with a given identifier

  A conversion only looks at the context: it never adds to it.

  This models `converter_for` and `convert`, over the table of all `TemplateConverter`s.
-/
import ProfileMigration.Legacy.Normalize
import ProfileMigration.Legacy.Tree
import ProfileMigration.Parcel.Basic
import ProfileMigration.Template.PolicyList
import ProfileMigration.Template.Routing
import ProfileMigration.Template.Vpn

namespace ProfileMigration

/-- How the definitions of certain legacy types become parcels. -/
structure Template where
  /-- The legacy types. -/
  kinds : List String
  /-- The declared kinds of fields. -/
  hints : Hints
  /-- The type and the field tree of the parcel. -/
  content : Context → FieldMap → Converted (ParcelType × FieldMap)

namespace Template

/-- A template whose parcels are all of one type and refer to nothing. -/
def plain (kind : String) (hints : Hints) (type : ParcelType)
    (content : FieldMap → Converted FieldMap) : Template :=
  ⟨[kind], hints, fun _ values => (content values).map (type, ·)⟩

/-- A template whose parcels are all of one type and may refer to others. -/
def referring (kind : String) (hints : Hints) (type : ParcelType)
    (content : Context → FieldMap → Converted FieldMap) : Template :=
  ⟨[kind], hints, fun ctx values => (content ctx values).map (type, ·)⟩

/-- Every template. -/
def all : List Template :=
  [plain "cisco_system" basicHints .basic basic,
    plain "cisco_banner" bannerHints .banner banner,
    plain "cisco_logging" loggingHints .logging logging,
    plain "cisco_ntp" ntpHints .ntp ntp,
    plain "cisco_bfd" bfdHints .bfd bfd,
    plain "cisco_omp" ompHints .omp omp,
    ⟨["cisco_vpn"], vpnHints, fun _ values => vpn values⟩,
    plain "cisco_vpn_interface" ethernetHints .ethernet ethernet,
    referring "cisco_bgp" bgpHints .bgp bgp,
    referring "cisco_ospf" ospfHints .ospf ospf,
    referring "vedgeRoute" routePolicyHints .routePolicy routePolicy,
    ⟨listTypes.map (·.1), policyListHints, fun _ values => policyList values⟩]

end Template

/-- The template of a legacy type. -/
def template? (kind : String) : Option Template :=
  Template.all.find? fun t => t.kinds.contains kind

/-- An object as a parcel that carries the given identifier. -/
def convert (object : LegacyObject) (id : Uuid) (ctx : Context) : Converted Parcel :=
  match template? object.kind with
  | none => .error (.notConvertible object.kind)
  | some t =>
    (t.content ctx (Legacy.normalize t.hints object.definition)).map fun (type, data) =>
      ⟨some id, object.name, object.description, type, data⟩

end ProfileMigration
