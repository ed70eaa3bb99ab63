/-
  ProfileMigration.Proofs.Plan.PulledPolicies

  The route policies that are pulled into a plan:

    pullNext                    -- one more reference, whose policy may be pulled already
    foldl_pullNext              -- the policies pulled for references one after the other
    pairwise_pulledPolicies     -- they stand in the order in which they are first referred to
    ProfilePlan.mem_references_iff -- what a plan refers to, by its parcels
    withRoutePolicies_exact     -- the needed policies are pulled, each once, ahead of the rest
-/
import ProfileMigration.Proofs.Plan.ReferenceClosure
import ProfileMigration.Proofs.Sequence.FirstMention

namespace ProfileMigration

variable {policy? : Uuid → Option Parcel}

/-! ## Pulling policies one by one -/

/-- Pulls the policy with an identifier, if there is one and it has not been pulled yet. -/
def pullNext (policy? : Uuid → Option Parcel) (pulled : List Parcel) (id : Uuid) : List Parcel :=
  match policy? id with
  | some q => if pulled.any fun p => p.id = some id then pulled else pulled ++ [q]
  | none => pulled

/-- Where policies carry the identifiers that they are found under, pulling them one by one
    gives the policy of each identifier once, in order of first mention. -/
theorem foldl_pullNext (hkeyed : ∀ id q, policy? id = some q → q.id = some id) (ids : List Uuid) :
    ids.foldl (pullNext policy?) [] = ids.eraseDups.filterMap policy? := by
  induction ids using List.reverseRecOn with
  | nil => rfl
  | append_singleton ids id ih =>
    rw [List.foldl_append, ih, List.foldl_cons, List.foldl_nil, pullNext]
    by_cases hid : id ∈ ids
    · rw [eraseDups_snoc_of_mem hid]
      cases hq : policy? id with
      | none => rfl
      | some q =>
        -- Its policy was pulled when it was mentioned first
        refine if_pos (List.any_eq_true.mpr ⟨q, ?_, decide_eq_true (hkeyed id q hq)⟩)
        exact List.mem_filterMap.mpr ⟨id, List.mem_eraseDups.mpr hid, hq⟩
    · rw [eraseDups_snoc_of_not_mem hid, List.filterMap_append]
      cases hq : policy? id with
      | none => simp [hq]
      | some q =>
        have hnew : ¬ (ids.eraseDups.filterMap policy?).any (fun p => p.id = some id) := by
          intro hany
          obtain ⟨p, hp, hpid⟩ := List.any_eq_true.mp hany
          obtain ⟨other, hother, hpolicy⟩ := List.mem_filterMap.mp hp
          have heq := (hkeyed other p hpolicy).symm.trans (of_decide_eq_true hpid)
          exact hid (Option.some.inj heq ▸ List.mem_eraseDups.mp hother)
        dsimp only
        rw [if_neg hnew]
        simp [hq]

/-! ## Plans with their policies -/

/-- One policy is referred to before another in a list of references. -/
def Parcel.NamedBefore (refs : List Uuid) (p q : Parcel) : Prop :=
  ∃ id id', p.id = some id ∧ q.id = some id' ∧ refs.idxOf id < refs.idxOf id'

/-- Pulled policies stand in the order in which they are first referred to. -/
theorem pairwise_pulledPolicies (hkeyed : ∀ id q, policy? id = some q → q.id = some id)
    (plan : ProfilePlan) :
    (pulledPolicies policy? plan).Pairwise (Parcel.NamedBefore plan.references) := by
  rw [pulledPolicies, List.pairwise_filterMap]
  refine (pairwise_idxOf_eraseDups _).imp fun {id id'} hlt p hp q hq => ?_
  exact ⟨id, id', hkeyed id p hp, hkeyed id' q hq, hlt⟩

/-- A plan refers to what its parcels refer to. -/
theorem ProfilePlan.mem_references_iff {plan : ProfilePlan} {id : Uuid} :
    id ∈ plan.references ↔ ∃ p ∈ plan.members, id ∈ p.references := by
  rw [references, List.mem_flatMap]
  exact exists_congr fun p => and_congr_left fun _ => List.perm_append_comm.mem_iff

theorem mem_pulledPolicies_iff {plan : ProfilePlan} {q : Parcel} :
    q ∈ pulledPolicies policy? plan ↔
      ∃ p ∈ plan.members, ∃ id ∈ p.references, policy? id = some q := by
  rw [pulledPolicies, List.mem_filterMap]
  constructor
  · rintro ⟨id, hid, hq⟩
    obtain ⟨p, hp, hpid⟩ := ProfilePlan.mem_references_iff.mp (List.mem_eraseDups.mp hid)
    exact ⟨p, hp, id, hpid, hq⟩
  · rintro ⟨p, hp, id, hid, hq⟩
    exact ⟨id, List.mem_eraseDups.mpr (ProfilePlan.mem_references_iff.mpr ⟨p, hp, hid⟩), hq⟩

/-- Exactly the needed route policies are pulled into a plan: those that one of its parcels
    refers to, each once, in order of first reference, with parents and their children before
    the other parcels. They come in front of the former parcels, which stay as they were, like
    the parents do, so that every policy referred to by a parcel stands ahead of it. -/
theorem withRoutePolicies_exact (hkeyed : ∀ id q, policy? id = some q → q.id = some id)
    (plan : ProfilePlan) :
    ∃ pulled, withRoutePolicies policy? plan = { plan with parcels := pulled ++ plan.parcels } ∧
      pulled = plan.references.foldl (pullNext policy?) [] ∧
      (∀ q, q ∈ pulled ↔ ∃ p ∈ plan.members, ∃ id ∈ p.references, policy? id = some q) ∧
      (pulled.map Parcel.id).Nodup ∧
      pulled.Pairwise (Parcel.NamedBefore plan.references) ∧
      (withRoutePolicies policy? plan).members = pulled ++ plan.members ∧
      ∀ p ∈ plan.members, ∀ id ∈ p.references, ∀ q, policy? id = some q →
        q ∈ pulled ∧ q.id = some id := by
  have horder := pairwise_pulledPolicies hkeyed plan
  refine ⟨pulledPolicies policy? plan, rfl, (foldl_pullNext hkeyed _).symm,
    fun q => mem_pulledPolicies_iff, ?once, horder, List.append_assoc _ _ _, ?ahead⟩
  case once =>
    rw [List.Nodup, List.pairwise_map]
    refine horder.imp fun {p q} hbefore heq => ?_
    obtain ⟨id, id', hid, hid', hlt⟩ := hbefore
    rw [hid, hid'] at heq
    rw [Option.some.inj heq] at hlt
    exact Nat.lt_irrefl _ hlt
  case ahead =>
    intro p hp id hid q hq
    exact ⟨mem_pulledPolicies_iff.mpr ⟨p, hp, id, hid, hq⟩, hkeyed id q hq⟩

/-- A parcel with a numbered identifier that refers to some numbered others. -/
def numberedParcel (type : ParcelType) (n : Nat) (targets : List Nat) : Parcel :=
  ⟨some ⟨.ofNat 128 n⟩, "p", none, type,
    [("to", .items (targets.map fun t => [("ref", .objectRef ⟨.ofNat 128 t⟩)]))]⟩

/-- Four converted route policies, each of which refers to the policy list of number 9. -/
def numberedPolicies : Parcels :=
  [1, 2, 3, 4].map fun n => ((.policyDefinition, toString n), numberedParcel .routePolicy n [9])

/-- A VPN with two children that refer to policies in different order, one of them twice and one
    also to a list, beside a parcel that refers to one policy more. -/
def referringPlan : ProfilePlan :=
  ⟨"site_service", none, .service, [numberedParcel .basic 20 [3, 1]],
    [⟨numberedParcel .lanVpn 21 [],
      [numberedParcel .bgp 22 [2, 9, 2], numberedParcel .ospf 23 [1, 2]]⟩]⟩

/-- The policies of the children come first, then that of the other parcel; the fourth policy is
    not needed. -/
theorem withRoutePolicies_exact_numbered :
    let after := withRoutePolicies numberedPolicies.routePolicy? referringPlan
    (∀ id q, numberedPolicies.routePolicy? id = some q → q.id = some id) ∧
      after.parcels.map Parcel.id = [2, 1, 3, 20].map (fun n => some ⟨.ofNat 128 n⟩) ∧
      after.parents = referringPlan.parents ∧
      ∀ p ∈ referringPlan.members, ∀ id ∈ p.references, ∀ q,
        numberedPolicies.routePolicy? id = some q → q ∈ after.parcels := by
  intro after
  have hkeyed : ∀ id q, numberedPolicies.routePolicy? id = some q → q.id = some id :=
    fun _ _ h => (Parcels.of_routePolicy? h).2.2
  obtain ⟨pulled, hafter, -, -, -, -, -, hahead⟩ := withRoutePolicies_exact hkeyed referringPlan
  refine ⟨hkeyed, by decide +kernel, by rw [show after = _ from hafter], fun p hp id hid q hq => ?_⟩
  rw [show after = _ from hafter]
  exact List.mem_append_left _ (hahead p hp id hid q hq).1

end ProfileMigration
