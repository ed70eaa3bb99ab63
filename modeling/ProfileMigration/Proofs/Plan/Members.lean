/-
  ProfileMigration.Proofs.Plan.Members

  What the plans of a transform consist of:

    Parcel.Made             -- a parcel that some object was converted into
    Sweep.Made              -- a state of conversion whose parcels were all made so
    Sweep.made_ofTree       -- every pass over a tree keeps to that
    made_of_mem_members     -- so every parcel of a plan was made so
    TransformResult.mapParcels -- the same plans with something in place of every parcel

  In no context is there a parcel that does not come from a conversion.
-/
import ProfileMigration.Proofs.Plan.ReferenceClosure

namespace ProfileMigration

/-- A parcel that some object was converted into. -/
def Parcel.Made (p : Parcel) : Prop := ∃ o id ctx, convert o id ctx = .ok p

/-! ## Conversion -/

namespace Sweep

/-- A state of conversion whose parcels were all made of objects. -/
def Made (s : Sweep) : Prop := ∀ entry ∈ s.parcels, entry.2.Made

variable {s : Sweep}

theorem Made.visit (h : s.Made) (o : LegacyObject) : (s.visit o).Made := by
  rw [Sweep.visit]
  split
  · rename_i p hp
    intro entry hentry
    rcases Entries.mem_assign hentry with rfl | hentry
    · exact ⟨o, _, _, hp⟩
    · exact h entry hentry
  · split
    · exact h
    · exact h

theorem Made.pass (h : s.Made) (objects : List LegacyObject) : (s.pass objects).Made := by
  rw [Sweep.pass]
  have hstart : ({ s with waiting := [] } : Sweep).Made := h
  generalize ({ s with waiting := [] } : Sweep) = s' at hstart
  induction objects generalizing s' with
  | nil => exact hstart
  | cons o rest ih => exact ih _ (hstart.visit o)

theorem Made.run (h : s.Made) (objects : List LegacyObject) : (s.run objects).Made := by
  induction s, objects using Sweep.run.induct with
  | case1 s objects next hmore hlt ih =>
    rw [Sweep.run, dif_pos hmore]
    exact ih (h.pass objects)
  | case2 s objects next hend =>
    rw [Sweep.run, dif_neg hend]
    exact h.pass objects

theorem made_ofTree (tree : CollectedTree) (ctx : Context) : (ofTree tree ctx).Made := by
  have hstart : (start ctx).Made := List.forall_mem_nil _
  exact hstart.run tree.objects

end Sweep

/-! ## Planning -/

theorem made_of_get? {s : Sweep} (h : s.Made) {origin : Origin} {p : Parcel}
    (hp : s.parcels.get? origin = some p) : p.Made :=
  h _ (Entries.mem_of_get? hp)

/-- Every parcel of a plan was made of an object. -/
theorem made_of_mem_members {tree : CollectedTree} {ctx : Context} {mark : String}
    {plan : ProfilePlan} (hplan : plan ∈ (transform tree ctx mark).1.plans) :
    ∀ p ∈ plan.members, p.Made := by
  have hmade := Sweep.made_ofTree tree ctx
  intro p hp
  rw [transform_fst] at hplan
  rcases List.mem_append.mp hplan with hshared | hown
  · rw [policyObjectPlan_eq_some (Option.mem_toList.mp hshared)] at hp
    obtain ⟨l, -, hl⟩ := List.mem_filterMap.mp hp
    exact made_of_get? hmade hl
  · obtain ⟨t, -, ht⟩ := List.mem_flatMap.mp hown
    obtain ⟨drawn, hdrawn, rfl⟩ := List.mem_map.mp ht
    rw [ProfilePlan.members, withRoutePolicies, List.append_assoc] at hp
    rcases List.mem_append.mp hp with hpulled | hplaced
    · -- A pulled policy is one of the parcels
      obtain ⟨id, -, hid⟩ := List.mem_filterMap.mp hpulled
      obtain ⟨entry, hentry, rfl⟩ := (Parcels.of_routePolicy? hid).1
      exact hmade entry hentry
    · obtain ⟨id, hid⟩ := drawn_of_mem_devicePlans hdrawn p hplaced
      exact made_of_get? hmade hid

/-! ## Parcels in place of others -/

variable (f : Parcel → Parcel)

/-- A VPN with something in place of every parcel. -/
def ParentPlan.mapParcels (v : ParentPlan) : ParentPlan := ⟨f v.parcel, v.children.map f⟩

/-- A plan with something in place of every parcel. -/
def ProfilePlan.mapParcels (plan : ProfilePlan) : ProfilePlan :=
  { plan with
    parcels := plan.parcels.map f
    parents := plan.parents.map (ParentPlan.mapParcels f) }

/-- The same plans with something in place of every parcel. -/
def TransformResult.mapParcels (r : TransformResult) : TransformResult :=
  { r with
    policyObjects := r.policyObjects.map (ProfilePlan.mapParcels f)
    profiles := r.profiles.map (ProfilePlan.mapParcels f) }

end ProfileMigration
