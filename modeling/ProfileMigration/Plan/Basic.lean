/-
  ProfileMigration.Plan.Basic

  What a run will create, and its wire form:

    ParentPlan          -- a VPN and the parcels under it
    ProfilePlan         -- a profile: parcels on their own, and parents
    ProfilePlan.members -- every parcel in it
    TransformFailure    -- an object that cannot be converted or placed
    TransformResult     -- the plans in order of creation, and the failures

  This models `ParentPlan`, `ProfilePlan` with `is_empty`, `TransformFailure` and
  `TransformResult`.
-/
import ProfileMigration.Legacy.Tree
import ProfileMigration.Parcel.Basic

namespace ProfileMigration

/-- A VPN and the parcels that hang off it. -/
structure ParentPlan where
  parcel : Parcel
  children : List Parcel
deriving DecidableEq

/-- A profile to create and everything to put in it. -/
structure ProfilePlan where
  name : String
  description : Option String
  type : ProfileType
  parcels : List Parcel
  parents : List ParentPlan
deriving DecidableEq

/-- An object that cannot be converted or placed. -/
structure TransformFailure where
  origin : String
  name : String
  category : Category
  kind : String
  error : String
deriving DecidableEq

/-- The profiles to create, and what is left out. -/
structure TransformResult where
  /-- The profile that the others share, created first. -/
  policyObjects : Option ProfilePlan
  profiles : List ProfilePlan
  failures : List TransformFailure
deriving DecidableEq

namespace ParentPlan

/-- The parent and its children. -/
def members (p : ParentPlan) : List Parcel := p.parcel :: p.children

def toJson (p : ParentPlan) : Json :=
  .obj [("parcel", p.parcel.toJson), ("children", Wire.ofList Parcel.toJson p.children)]

def ofDocument : Wire.Reader ParentPlan :=
  Wire.record "ParentPlan" 2 fun row =>
    ParentPlan.mk <$> row.required 0 "parcel" Parcel.ofDocument
      <*> row.defaulted 1 "children" (Wire.list Parcel.ofDocument) []

end ParentPlan

namespace ProfilePlan

/-- Whether there is nothing to put in the profile. -/
def isEmpty (p : ProfilePlan) : Bool := p.parcels.isEmpty && p.parents.isEmpty

/-- Every parcel of the plan. -/
def members (p : ProfilePlan) : List Parcel := p.parcels ++ p.parents.flatMap ParentPlan.members

def toJson (p : ProfilePlan) : Json :=
  .obj ([("name", .str p.name)] ++ Wire.member? "description" (p.description.map .str) ++
    [("profile_type", p.type.toJson), ("parcels", Wire.ofList Parcel.toJson p.parcels),
      ("parents", Wire.ofList ParentPlan.toJson p.parents)])

def ofDocument : Wire.Reader ProfilePlan :=
  Wire.record "ProfilePlan" 5 fun row =>
    ProfilePlan.mk <$> row.required 0 "name" Wire.text
      <*> row.optional 1 "description" Wire.text
      <*> row.required 2 "profile_type" ProfileType.ofDocument
      <*> row.defaulted 3 "parcels" (Wire.list Parcel.ofDocument) []
      <*> row.defaulted 4 "parents" (Wire.list ParentPlan.ofDocument) []

end ProfilePlan

namespace TransformFailure

def toJson (f : TransformFailure) : Json :=
  .obj [("origin_id", .str f.origin), ("name", .str f.name), ("category", .str f.category.text),
    ("kind", .str f.kind), ("error", .str f.error)]

def ofDocument : Wire.Reader TransformFailure :=
  Wire.record "TransformFailure" 5 fun row =>
    TransformFailure.mk <$> row.required 0 "origin_id" Wire.text
      <*> row.required 1 "name" Wire.text <*> row.required 2 "category" Category.ofDocument
      <*> row.required 3 "kind" Wire.text <*> row.required 4 "error" Wire.text

end TransformFailure

namespace TransformResult

/-- The plans in order of creation. -/
def plans (r : TransformResult) : List ProfilePlan := r.policyObjects.toList ++ r.profiles

def toJson (r : TransformResult) : Json :=
  .obj [("policy_objects", .ofOption (r.policyObjects.map ProfilePlan.toJson)),
    ("profiles", Wire.ofList ProfilePlan.toJson r.profiles),
    ("failures", Wire.ofList TransformFailure.toJson r.failures)]

def ofDocument : Wire.Reader TransformResult :=
  Wire.record "TransformResult" 3 fun row =>
    TransformResult.mk <$> row.optional 0 "policy_objects" ProfilePlan.ofDocument
      <*> row.defaulted 1 "profiles" (Wire.list ProfilePlan.ofDocument) []
      <*> row.defaulted 2 "failures" (Wire.list TransformFailure.ofDocument) []

end TransformResult

end ProfileMigration
