/-
  ProfileMigration.Plan.Placement

  Where the feature templates of a device template go:

    Placement           -- system parcels, VPNs of both profiles, and what fits nowhere
    Placement.attach    -- one attached template with its sub-templates
    devicePlans         -- the profiles of a device template, empty ones left out
    misplacedFailures   -- the report of what fits nowhere
    withRoutePolicies   -- the policies that a profile refers to, in front of its parcels

  `Placement` models `DevicePlans`, `Placement.attach` its `place`; `withRoutePolicies` models
  `pull_route_policies`, and `devicePlans` with `misplacedFailures` models `device_profiles`.
-/
import ProfileMigration.Plan.Sweep

namespace ProfileMigration

/-- The parcels of a device template by place. -/
structure Placement where
  system : List Parcel
  transport : List ParentPlan
  service : List ParentPlan
  /-- Parcels that live under a VPN and are attached elsewhere. -/
  misplaced : List Parcel

namespace Parcels

/-- The parcel of a feature template. -/
def ofTemplate? (ps : Parcels) (id : String) : Option Parcel := ps.get? (.featureTemplate, id)

end Parcels

namespace Placement

/-- Nothing placed. -/
def empty : Placement := ⟨[], [], [], []⟩

/-- A VPN with the parcels of its direct sub-templates. -/
def vpnPlan (ps : Parcels) (p : Parcel) (subs : List Attachment) : ParentPlan :=
  ⟨p, subs.filterMap fun sub => ps.ofTemplate? sub.templateId⟩

mutual

/-- Places an attached template. One that was not converted is passed over with its
    sub-templates; those of a system template are placed on their own. -/
def attach (ps : Parcels) (placed : Placement) : Attachment → Placement
  | ⟨id, _, subs⟩ =>
    match ps.ofTemplate? id with
    | none => placed
    | some p =>
      match p.type.profile? with
      | some .system => attachAll ps { placed with system := placed.system ++ [p] } subs
      | some .transport =>
        { placed with transport := placed.transport ++ [vpnPlan ps p subs] }
      | some .service => { placed with service := placed.service ++ [vpnPlan ps p subs] }
      | some .policyObject | none => { placed with misplaced := placed.misplaced ++ [p] }

/-- Places attached templates in order. -/
def attachAll (ps : Parcels) (placed : Placement) : List Attachment → Placement
  | [] => placed
  | a :: rest => attachAll ps (attach ps placed a) rest

end

/-- The placement of everything attached to a device template. -/
def ofTemplate (ps : Parcels) (t : DeviceTemplate) : Placement := attachAll ps empty t.templates

end Placement

/-- What is reported of a parcel that fits nowhere. -/
def misplacedFailure (t : DeviceTemplate) (p : Parcel) : TransformFailure :=
  ⟨t.id, p.name, .featureTemplate, p.type.tag,
    p.type.tag ++ " must be attached under a VPN in '" ++ t.name ++ "'"⟩

/-- What is reported of a device template. -/
def misplacedFailures (ps : Parcels) (t : DeviceTemplate) : List TransformFailure :=
  (Placement.ofTemplate ps t).misplaced.map (misplacedFailure t)

/-- The name of a profile of a device template. -/
def profileName (mark : String) (t : DeviceTemplate) (type : ProfileType) : String :=
  mark ++ t.name ++ "_" ++ type.tag

/-- The profiles of a device template before policies are added, empty ones left out. -/
def devicePlans (ps : Parcels) (mark : String) (t : DeviceTemplate) : List ProfilePlan :=
  let placed := Placement.ofTemplate ps t
  let plan := fun type parcels parents =>
    (⟨profileName mark t type, t.description, type, parcels, parents⟩ : ProfilePlan)
  [plan .system placed.system [], plan .transport [] placed.transport,
    plan .service [] placed.service].filter fun p => !p.isEmpty

/-! ## Route policies -/

/-- The converted route policy with an identifier. -/
def Parcels.routePolicy? (ps : Parcels) (id : Uuid) : Option Parcel :=
  (ps.map Prod.snd).find? fun p => p.type = .routePolicy ∧ p.id = some id

/-- What the parcels of a plan refer to: parents with their children, then the rest. -/
def ProfilePlan.references (p : ProfilePlan) : List Uuid :=
  ((p.parents.flatMap ParentPlan.members) ++ p.parcels).flatMap Parcel.references

/-- The policies that a plan refers to, each once, in order of first mention. -/
def pulledPolicies (policy? : Uuid → Option Parcel) (p : ProfilePlan) : List Parcel :=
  p.references.eraseDups.filterMap policy?

/-- Puts the policies that a plan refers to in front of its parcels. -/
def withRoutePolicies (policy? : Uuid → Option Parcel) (p : ProfilePlan) : ProfilePlan :=
  { p with parcels := pulledPolicies policy? p ++ p.parcels }

end ProfileMigration
