/-
  ProfileMigration.Proofs.Delivery.Completeness

  A push leaves nothing of a plan out that it starts:

    ProfilePlan.families            -- the parents of a plan with their children, and their tags
    ProfilePlan.queue_perm_families -- a draft queues the parcels and the families of its plan
    ProfilePlan.queue_perm_members  -- these are all its members, and nothing else
    Delivery.Whole                  -- the profile is opened, and then every member has a turn
    Delivery.Lawful.whole           -- whatever the manager answers

  A member has its turn whether or not anything is asked in it: a parcel that is held back is
  reported there.
-/
import Mathlib.Data.List.Perm.Basic
import ProfileMigration.Proofs.Build.Seats
import ProfileMigration.Proofs.Delivery.Ledger

namespace ProfileMigration

/-! ## What a plan has queued -/

namespace ProfilePlan

/-- The parents of a plan, each with its children under one tag. That is the generated identifier
    of the parent, or its place where it has none. -/
def families (plan : ProfilePlan) : List (Seat × Parcel) :=
  plan.parents.zipIdx.flatMap fun (v, n) =>
    let tag := v.parcel.id.elim (Tag.place n) Tag.id
    (.parent tag, v.parcel) :: v.children.map (.child tag, ·)

theorem map_snd_tagged (plan : ProfilePlan) : plan.tagged.map Prod.snd = plan.parents := by
  rw [tagged]
  rw [List.map_map]
  exact List.zipIdx_map_fst 0 plan.parents

theorem families_eq (plan : ProfilePlan) :
    plan.families = plan.tagged.flatMap fun entry =>
      parentSlot (entry.1, entry.2.parcel) ::
        entry.2.children.map fun c => childSlot (entry.1, c) := by
  rw [tagged, List.flatMap_map]
  rw [families]
  congr 1
  funext entry
  obtain ⟨v, n⟩ := entry
  cases hid : v.parcel.id with
  | none => simp [parentSlot, childSlot, hid]
  | some id => simp [parentSlot, childSlot, hid]

theorem map_snd_families (plan : ProfilePlan) :
    plan.families.map Prod.snd = plan.parents.flatMap ParentPlan.members := by
  rw [families_eq, ← plan.map_snd_tagged, List.flatMap_map, List.map_flatMap]
  congr 1
  funext entry
  rw [List.map_cons, List.map_map]
  exact congrArg (List.cons entry.2.parcel) (List.map_id _)

/-- A draft queues the parcels of its plan on their own, and its families. -/
theorem queue_perm_families (plan : ProfilePlan) (ids : RemoteIds) :
    (plan.draft ids).queue.Perm (plan.parcels.map (Seat.alone, ·) ++ plan.families) := by
  have hparents : (plan.draft ids).parents.map parentSlot =
      plan.tagged.map fun entry => parentSlot (entry.1, entry.2.parcel) := by
    rw [draft]
    exact List.map_map
  have hchildren : (plan.draft ids).children.map childSlot =
      plan.tagged.flatMap fun entry => entry.2.children.map fun c => childSlot (entry.1, c) := by
    rw [draft]
    rw [List.map_flatMap]
    congr 1
    funext entry
    exact List.map_map
  rw [Draft.queue_eq, hparents, hchildren, families_eq]
  -- All parents and then all children, against each parent with its own
  exact (List.map_append_flatMap_perm _ _ _).append_left _

/-- It queues exactly the members of its plan. -/
theorem queue_perm_members (plan : ProfilePlan) (ids : RemoteIds) :
    ((plan.draft ids).queue.map Prod.snd).Perm plan.members := by
  have hqueue := (plan.queue_perm_families ids).map Prod.snd
  rw [List.map_append, map_snd_families, List.map_map] at hqueue
  have hparcels : plan.parcels.map (Prod.snd ∘ (Seat.alone, ·)) = plan.parcels := List.map_id _
  rw [hparcels] at hqueue
  exact hqueue

end ProfilePlan

/-! ## Whole deliveries -/

/-- The body that creates a profile names and describes it. -/
theorem Draft.get?_profileBody (header : ProfileHeader) :
    (profileBody header).get? "name" = some (.str header.name) ∧
      (profileBody header).get? "description" = header.description.map .str := by
  obtain ⟨name, description⟩ := header
  cases description with
  | none => exact ⟨rfl, rfl⟩
  | some _ => exact ⟨rfl, rfl⟩

namespace Delivery

/-- A delivery leaves nothing of its plan out. It opens the profile under the name of the plan,
    and once that is there every member of the plan has one turn: its parcels first and in order,
    then its parents and their children, each at its place. -/
structure Whole (d : Delivery) : Prop where
  opening : ∃ body, d.opening.call = .create d.plan.type.collectionPath body ∧
    body.get? "name" = some (.str d.plan.name) ∧
    body.get? "description" = d.plan.description.map .str
  /-- Without the profile there is nothing to put parcels in. -/
  unopened : d.report? = none → d.turns = []
  opened : d.report?.isSome → ∃ first rest, d.turns = first ++ rest ∧
    first.map Turn.slot = d.plan.parcels.map (Seat.alone, ·) ∧
    (rest.map Turn.slot).Perm d.plan.families

/-- The turns of a created profile are those of the members of its plan. -/
theorem Whole.members {d : Delivery} (h : d.Whole) (hreport : d.report?.isSome) :
    (d.turns.map Turn.parcel).Perm
      (d.plan.parcels ++ d.plan.parents.flatMap fun v => v.parcel :: v.children) := by
  obtain ⟨first, rest, hturns, hfirst, hrest⟩ := h.opened hreport
  have hfront : first.map Turn.parcel = d.plan.parcels := by
    have hparcels := congrArg (List.map Prod.snd) hfirst
    rw [List.map_map, List.map_map] at hparcels
    exact hparcels.trans (List.map_id _)
  have hback : (rest.map Turn.parcel).Perm
      (d.plan.parents.flatMap fun v => v.parcel :: v.children) := by
    have hfamilies := hrest.map Prod.snd
    rw [d.plan.map_snd_families, List.map_map] at hfamilies
    exact hfamilies
  rw [hturns, List.map_append, hfront]
  exact hback.append_left _

/-- Whatever the manager answers, a delivery is whole. -/
theorem Lawful.whole {d : Delivery} {ids : RemoteIds} (h : d.Lawful ids) : d.Whole := by
  obtain ⟨shared, plan, opening, outcome⟩ := d
  obtain ⟨hcall, hcases⟩ := h
  have hbody := Draft.get?_profileBody plan.header
  refine ⟨⟨_, hcall, hbody.1, hbody.2⟩, ?_, ?_⟩
  · intro hnone
    cases outcome with
    | error _ => rfl
    | ok _ => cases hnone
  · intro hsome
    cases outcome with
    | error _ => cases hsome
    | ok made =>
      obtain ⟨report, turns⟩ := made
      obtain ⟨-, -, -, haccount⟩ := hcases
      obtain ⟨first, rest, rfl, hfirst, -⟩ := haccount.alone_first
      refine ⟨first, rest, rfl, hfirst, ?_⟩
      -- What is queued beside the parcels on their own is left to the other turns
      have hqueue := haccount.queued.trans (plan.queue_perm_families ids)
      rw [List.map_append, hfirst] at hqueue
      exact (List.perm_append_left_iff _).mp hqueue

end Delivery

end ProfileMigration
