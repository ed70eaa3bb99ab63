/-
  ProfileMigration.Plan.Transform

  The plans for a collected tree:

    policyObjectHeader  -- the name and description of the shared profile
    policyObjectPlan    -- the converted policy lists, in collected order, under a header
    plansOf             -- all plans and failures of a converted tree
    transform           -- those of a collected tree, and the context after conversion

  The header of the shared profile is kept in the context for the time of the conversion.

  This models `transform_tree`; `policyObjectNote` is `POLICY_OBJECT_PROFILE`.
-/
import ProfileMigration.Plan.Placement

namespace ProfileMigration

/-- The name that the header of the shared profile is kept under. -/
def policyObjectNote : String := "policy_object_profile"

/-- The header of the profile of policy lists. -/
def policyObjectHeader (mark : String) : ProfileHeader :=
  ⟨mark ++ "policy_objects", some "Migrated policy lists"⟩

/-- The shared profile of policy lists, if there is a header for it and any list was converted. -/
def policyObjectPlan (ps : Parcels) (header : Option ProfileHeader) (tree : CollectedTree) :
    Option ProfilePlan :=
  let plan := header.map fun h =>
    (⟨h.name, h.description, .policyObject,
      tree.policyLists.filterMap fun l => ps.get? (.policyList, l.id), []⟩ : ProfilePlan)
  plan.filter fun plan => !plan.isEmpty

/-- The plans of a converted tree. Profile names begin with the given mark. -/
def plansOf (s : Sweep) (mark : String) (tree : CollectedTree) : TransformResult where
  policyObjects := policyObjectPlan s.parcels (s.ctx.header? policyObjectNote) tree
  profiles := tree.deviceTemplates.flatMap fun t =>
    (devicePlans s.parcels mark t).map (withRoutePolicies s.parcels.routePolicy?)
  failures := s.failures ++ tree.deviceTemplates.flatMap (misplacedFailures s.parcels)

/-- Converts a tree and plans the profiles to create. -/
def transform (tree : CollectedTree) (ctx : Context) (mark : String) :
    TransformResult × Context :=
  let s := Sweep.ofTree tree (ctx.attach policyObjectNote (.header (policyObjectHeader mark)))
  (plansOf s mark tree, s.ctx)

end ProfileMigration
