/-
  ProfileMigration.Proofs.Delivery.ReferenceClosure

  A push only misses references to parcels that it failed to create before:

    Account.planned_before          -- what a parcel refers to has had its turn
    Account.complete                -- a plan that lacks nothing is created without a complaint
    Delivery.Misses                 -- a parcel that fails for want of another one
    push_references_closed          -- the only ones that fail so, in a push of a whole tree

  It follows from the plans, which are grounded, and from the turns of each build, in which
  policies come first.
-/
import Mathlib.Data.List.Forall2
import ProfileMigration.Proofs.Build.Reasons
import ProfileMigration.Proofs.Delivery.Completeness
import ProfileMigration.Proofs.Plan.ReferenceClosure

namespace ProfileMigration

/-! ## Drafts of plans -/

namespace ProfilePlan

variable {plan : ProfilePlan} {ids : RemoteIds}

/-- What is not queued on its own is a parent or a child. -/
theorem mem_parents_of_mem_queue {slot : Seat × Parcel} (h : slot ∈ (plan.draft ids).queue)
    (hseat : slot.1 ≠ .alone) : slot.2 ∈ plan.parents.flatMap ParentPlan.members := by
  have hparent : ∀ entry ∈ plan.tagged, entry.2 ∈ plan.parents := by
    intro entry hentry
    rw [← plan.map_snd_tagged]
    exact List.mem_map_of_mem hentry
  rw [Draft.queue] at h
  rw [List.mem_append, List.mem_append] at h
  rcases h with (h | h) | h
  · obtain ⟨p, -, rfl⟩ := List.mem_map.mp h
    exact absurd rfl hseat
  · obtain ⟨c, hc, rfl⟩ := List.mem_map.mp h
    obtain ⟨entry, hentry, rfl⟩ := List.mem_map.mp hc
    exact List.mem_flatMap.mpr ⟨entry.2, hparent entry hentry, List.mem_cons_self⟩
  · obtain ⟨c, hc, rfl⟩ := List.mem_map.mp h
    obtain ⟨entry, hentry, hchild⟩ := List.mem_flatMap.mp hc
    obtain ⟨p, hp, rfl⟩ := List.mem_map.mp hchild
    exact List.mem_flatMap.mpr ⟨entry.2, hparent entry hentry, List.mem_cons_of_mem _ hp⟩

/-- Every child of a plan has its parent in the draft. -/
theorem exists_parent_of_mem_queue {tag : Tag} {p : Parcel}
    (h : (Seat.child tag, p) ∈ (plan.draft ids).queue) :
    ∃ q, (tag, q) ∈ (plan.draft ids).parents := by
  rw [Draft.queue] at h
  rw [List.mem_append, List.mem_append] at h
  rcases h with (h | h) | h
  · obtain ⟨_, -, heq⟩ := List.mem_map.mp h
    cases heq
  · obtain ⟨_, -, heq⟩ := List.mem_map.mp h
    cases heq
  · obtain ⟨c, hc, heq⟩ := List.mem_map.mp h
    cases heq
    obtain ⟨entry, hentry, hchild⟩ := List.mem_flatMap.mp hc
    obtain ⟨_, -, heq⟩ := List.mem_map.mp hchild
    cases heq
    exact ⟨entry.2.parcel, List.mem_map.mpr ⟨entry, hentry, rfl⟩⟩

theorem Grounded.mono {known known' : Uuid → Prop} (h : plan.Grounded known)
    (hknown : ∀ id, known id → known' id) : plan.Grounded known' := by
  obtain ⟨pulled, own, hparcels, hpulled, hown⟩ := h
  exact ⟨pulled, own, hparcels, fun p hp id hid => hknown id (hpulled p hp id hid),
    fun p hp id hid => (hown p hp id hid).imp (hknown id) fun hq => hq⟩

end ProfilePlan

/-! ## Grounded plans turn by turn -/

namespace Account

variable {plan : ProfilePlan} {ids : RemoteIds} {base : String} {turns : List Turn}
  {report : BuildReport} {known : Uuid → Prop}

/-- What a parcel refers to is known beforehand, or it was planned before and has had its
    turn. -/
theorem planned_before (h : Account (plan.draft ids) base turns report)
    (hgrounded : plan.Grounded known) {earlier later : List Turn} {t : Turn}
    (hsplit : turns = earlier ++ t :: later) {r : Uuid} (hr : r ∈ t.parcel.references) :
    known r ∨ ∃ u ∈ earlier, u.parcel ∈ plan.parcels ∧ u.parcel.id = some r := by
  obtain ⟨pulled, own, hparcels, hpulled, hown⟩ := hgrounded
  obtain ⟨first, rest, hturns, hfirst, hrest⟩ := h.alone_first
  -- The turns of the policies, those of the other parcels of the plan, and the families
  have hslots : first.map Turn.slot =
      pulled.map (Seat.alone, ·) ++ own.map (Seat.alone, ·) := by
    rw [hfirst, ← List.map_append, ← hparcels]
    rfl
  obtain ⟨front, back, rfl, hfront, hback⟩ := List.map_eq_append_iff.mp hslots
  have hmem : ∀ {us : List Turn} {ps : List Parcel}, us.map Turn.slot = ps.map (Seat.alone, ·) →
      ∀ u ∈ us, u.parcel ∈ ps := by
    intro us ps hus u hu
    have hslot : u.slot ∈ us.map Turn.slot := List.mem_map_of_mem hu
    rw [hus] at hslot
    obtain ⟨p, hp, heq⟩ := List.mem_map.mp hslot
    have hparcel : p = u.parcel := congrArg Prod.snd heq
    rw [← hparcel]
    exact hp
  rw [hsplit, List.append_assoc] at hturns
  by_cases hpolicy : t.parcel ∈ pulled
  · exact .inl (hpulled _ hpolicy r hr)
  · -- Anything but a policy comes after all the policies
    have hnot : t ∉ front := fun ht => hpolicy (hmem hfront t ht)
    obtain ⟨between, hearlier, hlater⟩ := split_of_not_mem hnot hturns.symm
    have hplanned : t.parcel ∈ own ++ plan.parents.flatMap ParentPlan.members := by
      have ht : t ∈ back ++ rest := by
        rw [hlater]
        simp
      rcases List.mem_append.mp ht with ht | ht
      · exact List.mem_append_left _ (hmem hback t ht)
      · have hslot : t.slot ∈ (plan.draft ids).queue := by
          refine h.queued.mem_iff.mp (List.mem_map_of_mem ?_)
          rw [hsplit]
          simp
        exact List.mem_append_right _ (ProfilePlan.mem_parents_of_mem_queue hslot (hrest t ht))
    rcases hown _ hplanned r hr with hknown | ⟨q, hq, hid⟩
    · exact .inl hknown
    · have hslot : (Seat.alone, q) ∈ front.map Turn.slot := by
        rw [hfront]
        exact List.mem_map_of_mem hq
      obtain ⟨u, hu, heq⟩ := List.mem_map.mp hslot
      have hparcel : u.parcel = q := congrArg Prod.snd heq
      refine .inr ⟨u, ?_, ?_, by rw [hparcel]; exact hid⟩
      · rw [hearlier]
        exact List.mem_append_left _ hu
      · rw [hparcel, hparcels]
        exact List.mem_append_left _ hq

/-- A reference is said to be missing when a parcel for it was known or had its turn, and no
    such parcel has a remote identifier. -/
theorem missing (h : Account (plan.draft ids) base turns report) (hgrounded : plan.Grounded known)
    {f : FailedItem} (hf : f ∈ report.failed) {r : Uuid} (hr : f.error = missingText r) :
    ∃ earlier t later, turns = earlier ++ t :: later ∧ f ∈ t.failedItems ∧
      r ∈ t.parcel.references ∧
      (known r ∨ ∃ u ∈ earlier, u.parcel ∈ plan.parcels ∧ u.parcel.id = some r) ∧
      ids.get? r = none ∧ ∀ u ∈ earlier, u.parcel.id = some r → u.fate.id? = none := by
  rw [h.failed] at hf
  obtain ⟨t, ht, hft⟩ := List.mem_flatMap.mp hf
  obtain ⟨earlier, later, hsplit⟩ := List.append_of_mem ht
  obtain ⟨href, hunknown⟩ := Parcel.unknown_of_request
    ((h.lawful earlier t later hsplit).request_of_missing hft hr)
  exact ⟨earlier, t, later, hsplit, hft, href, h.planned_before hgrounded hsplit href,
    Turn.get?_known_eq_none_iff.mp hunknown⟩

/-- If the manager answers every call with an identifier, a plan whose references are known or
    its own is created as a whole. -/
theorem complete (h : Account (plan.draft ids) base turns report)
    (hgrounded : plan.Grounded known) (hknown : ∀ r, known r → ids.get? r ≠ none)
    (hanswers : ∀ x ∈ turns.flatMap Turn.exchanges, x.id?.isSome) :
    ∀ t ∈ turns, t.fate.id?.isSome ∧ t.failedItems = [] := by
  -- What a parcel refers to and the parent of a child come earlier, and have been created
  refine forall_mem_of_before fun earlier t later hsplit hearlier => ?_
  have ht : t ∈ turns := by
    rw [hsplit]
    simp
  refine (h.lawful earlier t later hsplit).created_of_answered ?_ ?_ ?_
  · intro r hrequest
    obtain ⟨href, hunknown⟩ := Parcel.unknown_of_request hrequest
    obtain ⟨hids, hnone⟩ := Turn.get?_known_eq_none_iff.mp hunknown
    rcases h.planned_before hgrounded hsplit href with hr | ⟨u, hu, -, hid⟩
    · exact hknown r hr hids
    · have hsome := (hearlier u hu).1
      rw [hnone u hu hid] at hsome
      cases hsome
  · intro tag hseat
    have hslot : (Seat.child tag, t.parcel) ∈ (plan.draft ids).queue := by
      rw [← hseat]
      exact h.queued.mem_iff.mp (List.mem_map_of_mem ht)
    obtain ⟨p, hp⟩ := ProfilePlan.exists_parent_of_mem_queue hslot
    obtain ⟨q, hq⟩ := Option.isSome_iff_exists.mp
      (h.after_parent earlier t later tag p hsplit hseat hp)
    exact ⟨q, hq, (hearlier q (Turn.of_parentOf_eq_some hq).1).1⟩
  · exact fun x hx => hanswers x (List.mem_flatMap.mpr ⟨t, ht, hx⟩)

end Account

/-- The name, type and identifier of a parcel, which a report repeats for a created one. -/
def Parcel.label (p : Parcel) : String × ParcelType × Option Uuid := (p.name, p.type, p.id)

/-- The name, type and identifier of the parcel that was created. -/
def CreatedItem.label (c : CreatedItem) : String × ParcelType × Option Uuid :=
  (c.name, c.type, c.origin)

theorem Turn.labels_of_created {turns : List Turn} (h : ∀ t ∈ turns, t.fate.id?.isSome) :
    (turns.filterMap Turn.createdItem?).map CreatedItem.label =
      turns.map fun t => t.parcel.label := by
  induction turns with
  | nil => rfl
  | cons t turns ih =>
    obtain ⟨ht, hrest⟩ := List.forall_mem_cons.mp h
    obtain ⟨id, hid⟩ := Option.isSome_iff_exists.mp ht
    have hitem : t.createdItem? = some ⟨t.parcel.name, t.parcel.type, id, t.parcel.id⟩ := by
      rw [Turn.createdItem?, hid]
      rfl
    rw [List.filterMap_cons_some hitem, List.map_cons, List.map_cons, ih hrest]
    rfl

/-! ## Deliveries of a whole tree -/

namespace Delivery

/-- A parcel fails for want of an object: it refers to it, a parcel for it was planned before,
    in the shared profile or in the parcel's own, and no such parcel was created. -/
def Misses (before : List Delivery) (d : Delivery) (f : FailedItem) (r : Uuid) : Prop :=
  ∃ earlier t later, d.turns = earlier ++ t :: later ∧ f ∈ t.failedItems ∧
    r ∈ t.parcel.references ∧
    ((∃ d' ∈ before, d'.shared = true ∧ ∃ q ∈ d'.plan.members, q.id = some r) ∨
      ∃ u ∈ earlier, u.parcel ∈ d.plan.parcels ∧ u.parcel.id = some r) ∧
    (∀ d' ∈ before, d'.shared = true → ∀ u ∈ d'.turns, u.parcel.id = some r →
      u.createdItem? = none) ∧
    ∀ u ∈ earlier, u.parcel.id = some r → u.createdItem? = none

/-- A profile is created with everything that was planned for it. -/
def Complete (plan : ProfilePlan) (report : BuildReport) : Prop :=
  report.profileName = plan.name ∧ report.profileType = plan.type ∧ report.failed = [] ∧
    (report.created.map CreatedItem.label).Perm (plan.members.map Parcel.label)

/-- Before a delivery of a grounded transform, everything that its plan needs from elsewhere
    has been planned for the shared profile. -/
theorem grounded_of_ordered {r : TransformResult}
    (hshared : ∀ plan, r.policyObjects = some plan → plan.Grounded fun _ => False)
    (hprofiles : ∀ plan ∈ r.profiles, plan.Grounded r.Shares) {before after : List Delivery}
    {d : Delivery} {rest : List (Bool × ProfilePlan)}
    (h : r.ordered = (before ++ d :: after).map slot ++ rest) :
    d.plan.Grounded fun id =>
      ∃ d' ∈ before, d'.shared = true ∧ ∃ q ∈ d'.plan.members, q.id = some id := by
  have hprofile : ∀ {ds : List Delivery}, r.profiles.map (false, ·) = ds.map slot ++ rest →
      d ∈ ds → d.plan ∈ r.profiles := by
    intro ds hds hd
    have hslot : d.slot ∈ ds.map slot ++ rest :=
      List.mem_append_left rest (List.mem_map_of_mem hd)
    rw [← hds] at hslot
    obtain ⟨plan, hplan, heq⟩ := List.mem_map.mp hslot
    have hsame : plan = d.plan := congrArg Prod.snd heq
    rw [← hsame]
    exact hplan
  rw [TransformResult.ordered] at h
  cases hobjects : r.policyObjects with
  | none =>
    -- Without a shared profile nothing is shared, so the plan needs nothing from elsewhere
    rw [hobjects] at h
    have hd : d.plan ∈ r.profiles := hprofile h (List.mem_append_right _ List.mem_cons_self)
    refine (hprofiles _ hd).mono ?_
    rintro id ⟨plan, hplan, -⟩
    rw [hobjects] at hplan
    cases hplan
  | some objects =>
    rw [hobjects] at h
    cases before with
    | nil =>
      -- The first delivery is that of the shared profile
      have hslot : (true, objects) = d.slot := (List.cons.inj h).1
      have hplan : objects = d.plan := congrArg Prod.snd hslot
      rw [← hplan]
      exact (hshared objects hobjects).mono fun _ => False.elim
    | cons d' before =>
      -- Any other comes after it
      obtain ⟨hslot, hrest⟩ := List.cons.inj h
      have hd : d.plan ∈ r.profiles := hprofile hrest (List.mem_append_right _ List.mem_cons_self)
      refine (hprofiles _ hd).mono ?_
      rintro id ⟨plan, hplan, q, hq, hid⟩
      rw [hobjects] at hplan
      obtain rfl := Option.some.inj hplan
      have hplan' : objects = d'.plan := congrArg Prod.snd hslot
      refine ⟨d', List.mem_cons_self, (congrArg Prod.fst hslot).symm, q, ?_, hid⟩
      rw [← hplan']
      exact hq

end Delivery

section Deliveries

variable {r : TransformResult} {ds : List Delivery}

/-- In deliveries of grounded plans a reference is only missing when its parcel failed. -/
theorem misses_of_failed
    (hground : ∀ before d after, ds = before ++ d :: after → d.plan.Grounded fun id =>
      ∃ d' ∈ before, d'.shared = true ∧ ∃ q ∈ d'.plan.members, q.id = some id)
    (hlawful : ∀ before d after, ds = before ++ d :: after →
      d.Lawful (Delivery.known [] before))
    {before after : List Delivery} {d : Delivery} (hsplit : ds = before ++ d :: after)
    {report : BuildReport} (hreport : d.report? = some report) {f : FailedItem}
    (hf : f ∈ report.failed) {id : Uuid} (herror : f.error = missingText id) :
    d.Misses before f id := by
  have hground := hground before d after hsplit
  have hlawful := (hlawful before d after hsplit).2
  obtain ⟨shared, plan, opening, outcome⟩ := d
  cases outcome with
  | error _ => cases hreport
  | ok made =>
    obtain ⟨report', turns⟩ := made
    obtain rfl : report' = report := Option.some.inj hreport
    obtain ⟨-, -, -, haccount⟩ := hlawful
    obtain ⟨earlier, t, later, hturns, hft, href, hplanned, hunknown, hnone⟩ :=
      haccount.missing hground hf herror
    refine ⟨earlier, t, later, hturns, hft, href, hplanned, ?_, fun u hu hid =>
      Turn.createdItem?_eq_none_iff.mpr (hnone u hu hid)⟩
    exact fun d' hd' hshared u hu hid => Turn.createdItem?_eq_none_iff.mpr
      ((Delivery.get?_known_eq_none_iff.mp hunknown).2 d' hd' hshared u hu hid)

/-- If the manager answers every call with an identifier, deliveries of grounded plans create
    everything. -/
theorem complete_of_answered
    (hground : ∀ before d after, ds = before ++ d :: after → d.plan.Grounded fun id =>
      ∃ d' ∈ before, d'.shared = true ∧ ∃ q ∈ d'.plan.members, q.id = some id)
    (hlawful : ∀ before d after, ds = before ++ d :: after →
      d.Lawful (Delivery.known [] before))
    (hanswers : ∀ x ∈ ds.flatMap Delivery.exchanges, x.id?.isSome) :
    ∀ d ∈ ds, ∃ report, d.report? = some report ∧ d.failure? = none ∧
      Delivery.Complete d.plan report ∧
      ∀ q ∈ d.plan.members, ∃ t ∈ d.turns, t.parcel = q ∧ t.fate.id?.isSome := by
  refine forall_mem_of_before fun before d after hsplit hbefore => ?_
  -- What the shared profile was to create before is known
  have hknown : ∀ id, (∃ d' ∈ before, d'.shared = true ∧
      ∃ q ∈ d'.plan.members, q.id = some id) →
      (Delivery.known [] before).get? id ≠ none := by
    rintro id ⟨d', hd', hshared, q, hq, hid⟩ hnone
    obtain ⟨-, -, -, -, hmembers⟩ := hbefore d' hd'
    obtain ⟨t, ht, rfl, hcreated⟩ := hmembers q hq
    rw [(Delivery.get?_known_eq_none_iff.mp hnone).2 d' hd' hshared t ht hid] at hcreated
    cases hcreated
  have hd : d ∈ ds := by
    rw [hsplit]
    simp
  have hasked : ∀ x ∈ d.exchanges, x.id?.isSome := fun x hx =>
    hanswers x (List.mem_flatMap.mpr ⟨d, hd, hx⟩)
  have hground := hground before d after hsplit
  have hlawful := (hlawful before d after hsplit).2
  obtain ⟨shared, plan, opening, outcome⟩ := d
  cases outcome with
  | error _ =>
    have hopening := hasked opening List.mem_cons_self
    rw [show opening.id? = none from hlawful] at hopening
    cases hopening
  | ok made =>
    obtain ⟨report, turns⟩ := made
    obtain ⟨-, hname, htype, haccount⟩ := hlawful
    have hall := haccount.complete hground hknown fun x hx =>
      hasked x (List.mem_cons_of_mem _ hx)
    have hparcels : (turns.map Turn.parcel).Perm plan.members := by
      have hqueued := haccount.queued.map Prod.snd
      rw [List.map_map] at hqueued
      exact hqueued.trans (plan.queue_perm_members _)
    refine ⟨report, rfl, rfl, ⟨hname, htype, ?_, ?_⟩, ?_⟩
    · rw [haccount.failed, List.flatMap_eq_nil_iff]
      exact fun t ht => (hall t ht).2
    · rw [haccount.created, Turn.labels_of_created fun t ht => (hall t ht).1]
      have hlabels := hparcels.map Parcel.label
      rw [List.map_map] at hlabels
      exact hlabels
    · intro q hq
      obtain ⟨t, ht, hparcel⟩ := List.mem_map.mp (hparcels.mem_iff.mpr hq)
      exact ⟨t, ht, hparcel, (hall t ht).1⟩

/-- Where every delivery has a report, reports go with plans. -/
theorem forall₂_reports {P : ProfilePlan → BuildReport → Prop}
    (h : ∀ d ∈ ds, ∃ report, d.report? = some report ∧ P d.plan report) :
    List.Forall₂ P (ds.map Delivery.plan) (ds.filterMap Delivery.report?) := by
  induction ds with
  | nil => exact .nil
  | cons d ds ih =>
    obtain ⟨⟨report, hreport, hP⟩, hrest⟩ := List.forall_mem_cons.mp h
    rw [List.map_cons, List.filterMap_cons_some hreport]
    exact .cons hP (ih hrest)

end Deliveries

/-- In a push of a well-filed tree, a parcel fails for want of a reference only if a parcel with
    that identifier was planned before it and none was created. If the push is not cancelled and
    the manager answers every call with an identifier, every profile is created with everything
    planned for it, and nothing fails. -/
theorem push_references_closed {σ : Type} {t : CollectedTree} (hfiled : t.WellFiled)
    (notes : List (String × Note)) (mark : String) (m : Manager σ) (s : Session σ) :
    let plans := (transform t ⟨[], notes⟩ mark).1
    let pushed := push m plans s
    ∃ ds, Ledger m plans s ds pushed ∧
      (∀ before d after, ds = before ++ d :: after → ∀ report, d.report? = some report →
        ∀ f ∈ report.failed, ∀ r, f.error = missingText r → d.Misses before f r) ∧
      (pushed.1.cancelled = false → (∀ x ∈ ds.flatMap Delivery.exchanges, x.id?.isSome) →
        pushed.1.failures = [] ∧
          List.Forall₂ Delivery.Complete plans.plans pushed.1.reports) := by
  intro plans pushed
  obtain ⟨hshared, hprofiles⟩ := grounded_transform hfiled notes mark
  obtain ⟨ds, hledger⟩ := push_ledger m plans s
  have hground : ∀ before d after, ds = before ++ d :: after → d.plan.Grounded fun id =>
      ∃ d' ∈ before, d'.shared = true ∧ ∃ q ∈ d'.plan.members, q.id = some id := by
    intro before d after hsplit
    obtain ⟨rest, hplans, -, -⟩ := hledger.started
    rw [hsplit] at hplans
    exact Delivery.grounded_of_ordered hshared hprofiles hplans
  refine ⟨ds, hledger, ?_, ?_⟩
  · intro before d after hsplit report hreport f hf r herror
    exact misses_of_failed hground hledger.lawful hsplit hreport hf herror
  · intro huncancelled hanswers
    have hcomplete := complete_of_answered hground hledger.lawful hanswers
    have hplans : plans.plans = ds.map Delivery.plan := by
      have hsnd := congrArg (List.map Prod.snd) (hledger.slots_of_uncancelled huncancelled)
      rw [List.map_map] at hsnd
      rw [show Delivery.plan = Prod.snd ∘ Delivery.slot from rfl, hsnd, TransformResult.ordered,
        List.map_append, List.map_map, List.map_map, TransformResult.plans]
      congr 1
      · exact (List.map_id _).symm
      · exact (List.map_id _).symm
    constructor
    · rw [hledger.failures, List.filterMap_eq_nil_iff]
      intro d hd
      obtain ⟨_, -, hfailure, -⟩ := hcomplete d hd
      exact hfailure
    · rw [hledger.reports, hplans]
      refine forall₂_reports fun d hd => ?_
      obtain ⟨report, hreport, -, hdone, -⟩ := hcomplete d hd
      exact ⟨report, hreport, hdone⟩

/-- A protocol under a VPN that takes routes by a policy, which matches a list of prefixes; the
    number of the protocol is left to each device. -/
def linkedTree : CollectedTree where
  collectedAt := ⟨0, 0⟩
  featureTemplates := [
    ⟨"g", "bgp", none, .featureTemplate, "cisco_bgp", .obj [
      ("as-num", .obj [("vipType", .str "variableName"), ("vipVariableName", .str "bgp_as")]),
      ("neighbor", .arr [.obj [("address", .str "10.0.0.1"), ("remote-as", .str "65001"),
        ("address-family", .arr [.obj [("family-type", .str "ipv4-unicast"),
          ("route-policy", .arr [.obj [("pol-name", .str "p")]])]])]])]⟩,
    ⟨"v", "vpn", none, .featureTemplate, "cisco_vpn", .obj [("vpn-id", .str "10")]⟩]
  deviceTemplates := [⟨"d", "site", none, [⟨"v", "cisco_vpn", [⟨"g", "cisco_bgp", []⟩]⟩]⟩]
  policyLists := [⟨"l", "inside", none, .policyList, "dataPrefix", .obj [
    ("type", .str "dataPrefix"), ("entries", .arr [.obj [("ipPrefix", .str "10.0.0.0/8")]])]⟩]
  policyDefinitions := [⟨"p", "policy", none, .policyDefinition, "vedgeRoute", .obj [
    ("sequences", .arr [.obj [("sequenceId", .str "1"), ("match", .obj [
      ("entries", .arr [.obj [("field", .str "address"), ("ref", .str "l")]])])]])]⟩]
  failures := []
  cancelled := false

/-- A manager that gives every new object the same identifier. -/
def sameIdManager : Manager Unit where
  answer _ state := (.ok (.obj [("id", .str (idSpace.text))]), state)
  stopped _ := false

theorem wellFiled_linkedTree : linkedTree.WellFiled where
  lists := by decide +kernel
  listKinds o ho := .inl (by revert o; decide +kernel)
  definitions := by decide +kernel
  definitionKinds o ho := .inl (by revert o; decide +kernel)
  names := by decide +kernel

/-- Everything in `linkedTree` is created by a manager that always answers. -/
theorem push_linkedTree :
    let plans := (transform linkedTree ⟨[], []⟩ "new_").1
    let pushed := push sameIdManager.unstopped plans (.start ())
    pushed.1.failures = [] ∧ List.Forall₂ Delivery.Complete plans.plans pushed.1.reports := by
  obtain ⟨ds, hledger, -, hcomplete⟩ :=
    push_references_closed wellFiled_linkedTree [] "new_" sameIdManager.unstopped (.start ())
  refine hcomplete (push_unstopped _ _ _) fun x hx => ?_
  obtain ⟨state, hanswer⟩ := hledger.talk.answers.answer_of_mem hx
  have hid : createdId (.obj [("id", .str idSpace.text)]) = some idSpace := by decide +kernel
  rw [Exchange.id?, ← hanswer]
  show (createdId (.obj [("id", .str idSpace.text)])).isSome = true
  rw [hid]
  rfl

end ProfileMigration
