/-
  ProfileMigration.Proofs.Plan.ProfileKinds

  Which parcels are planned in a profile of their own kind:

    ParcelType.isVpn            -- the types under which other parcels are put
    ProfilePlan.Framed          -- pulled policies, parcels on their own and parents are in place
    ProfilePlan.WellTyped       -- and so are the children of the parents
    Parcels.Meets               -- the templates that placement takes up by themselves
    Placement.mem_parents_ofTemplate -- its parents are the VPNs among them
    transform_wellTyped         -- plans are framed; when they are well typed
    transform_strayTree         -- a system parcel under a VPN, and one among the policy lists

  Placement asks for the type of a template that it takes up by itself. Nobody asks for the type of
  what is attached below a VPN, nor of what the policy lists were converted to.
-/
import ProfileMigration.Proofs.Plan.Attachments
import ProfileMigration.Proofs.Plan.Copies

namespace ProfileMigration

/-! ## Parcels in place -/

/-- A VPN, under which other parcels are put. -/
def ParcelType.isVpn : ParcelType → Bool
  | wanVpn | managementVpn | lanVpn => true
  | _ => false

theorem ParcelType.isVpn_iff {t : ParcelType} :
    t.isVpn = true ↔ t.profile? = some .transport ∨ t.profile? = some .service := by
  cases t <;> decide

/-- Children whose type decides their profile belong into that of their parent. -/
def ParentPlan.Fits (v : ParentPlan) : Prop :=
  ∀ p ∈ v.children, p.type.profile? = none ∨ p.type.profile? = v.parcel.type.profile?

/-- A plan has certain route policies in front. All other parcels on their own, and the parents, are
    of types that belong into a profile of its kind. Its parents are VPNs. -/
structure ProfilePlan.Framed (plan : ProfilePlan) (pulled : List Parcel) : Prop where
  policies : ∀ p ∈ pulled, p.type = .routePolicy
  parcels : ∃ own, plan.parcels = pulled ++ own ∧ ∀ p ∈ own, p.type.profile? = some plan.type
  parents : ∀ v ∈ plan.parents,
    v.parcel.type.isVpn = true ∧ v.parcel.type.profile? = some plan.type

/-- Every parcel of a plan whose type decides its profile belongs into this one. Others are pulled
    route policies, or children of a VPN. -/
structure ProfilePlan.WellTyped (plan : ProfilePlan) (pulled : List Parcel) : Prop extends
    plan.Framed pulled where
  children : ∀ v ∈ plan.parents, v.Fits

/-! ## Templates that are taken up -/

namespace Parcels

/-- Placement takes up a converted template by itself if there are only system templates above
    it. -/
def Meets (ps : Parcels) (forest : List Attachment) (a : Attachment) (p : Parcel) : Prop :=
  ∃ above, Attached forest above a ∧
    (∀ b ∈ above, ((ps.ofTemplate? b.templateId).bind fun q => q.type.profile?) = some .system) ∧
    ps.ofTemplate? a.templateId = some p

/-- A VPN that placement takes up, with what is attached to it. -/
def Stands (ps : Parcels) (type : ProfileType) (forest : List Attachment) (v : ParentPlan) : Prop :=
  ∃ a p, ps.Meets forest a p ∧ p.type.isVpn = true ∧ p.type.profile? = some type ∧
    v = Placement.vpnPlan ps p a.subTemplates

variable {ps : Parcels} {type : ProfileType} {a b : Attachment} {rest : List Attachment}
  {p : Parcel} {v : ParentPlan}

theorem meets_cons_iff : ps.Meets (a :: rest) b p ↔ ps.Meets [a] b p ∨ ps.Meets rest b p := by
  simp only [Meets, @attached_cons_iff a _ rest, or_and_right, exists_or]

theorem stands_cons_iff :
    ps.Stands type (a :: rest) v ↔ ps.Stands type [a] v ∨ ps.Stands type rest v := by
  simp only [Stands, @meets_cons_iff ps a _ rest, or_and_right, exists_or]

theorem not_stands_nil : ¬ ps.Stands type [] v := by
  rintro ⟨_, _, ⟨_, hattached, -⟩, -⟩
  exact not_attached_nil hattached

/-- Of one template and those below it, placement takes up the template, and those below if it is
    a system template. -/
theorem meets_singleton_iff :
    ps.Meets [a] b p ↔ (b = a ∧ ps.ofTemplate? a.templateId = some p) ∨
      ((ps.ofTemplate? a.templateId).bind fun q => q.type.profile?) = some .system ∧
        ps.Meets a.subTemplates b p := by
  constructor
  · rintro ⟨above, hattached, hsystem, hp⟩
    cases above with
    | nil =>
      obtain rfl := List.mem_singleton.mp hattached
      exact .inl ⟨rfl, hp⟩
    | cons c above =>
      obtain ⟨hc, hattached⟩ := hattached
      obtain rfl := List.mem_singleton.mp hc
      obtain ⟨hself, habove⟩ := List.forall_mem_cons.mp hsystem
      exact .inr ⟨hself, above, hattached, habove, hp⟩
  · rintro (⟨rfl, hp⟩ | ⟨hself, above, hattached, habove, hp⟩)
    · exact ⟨[], List.mem_singleton.mpr rfl, List.forall_mem_nil _, hp⟩
    · exact ⟨a :: above, ⟨List.mem_singleton.mpr rfl, hattached⟩,
        List.forall_mem_cons.mpr ⟨hself, habove⟩, hp⟩

/-- Below a system template stands what stands among its sub-templates. -/
theorem stands_system_iff
    (h : ((ps.ofTemplate? a.templateId).bind fun q => q.type.profile?) = some .system) :
    ps.Stands type [a] v ↔ ps.Stands type a.subTemplates v := by
  constructor
  · rintro ⟨b, p, hmeets, hvpn, htype, hv⟩
    rcases meets_singleton_iff.mp hmeets with ⟨rfl, hp⟩ | ⟨-, hmeets⟩
    · -- A system template is no VPN
      rw [hp, Option.bind_some] at h
      rw [ParcelType.isVpn_iff, h] at hvpn
      rcases hvpn with hvpn | hvpn <;> cases hvpn
    · exact ⟨b, p, hmeets, hvpn, htype, hv⟩
  · rintro ⟨b, p, hmeets, hvpn, htype, hv⟩
    exact ⟨b, p, meets_singleton_iff.mpr (.inr ⟨h, hmeets⟩), hvpn, htype, hv⟩

/-- Below any other template nothing stands but the template itself. -/
theorem stands_singleton_iff
    (h : ((ps.ofTemplate? a.templateId).bind fun q => q.type.profile?) ≠ some .system) :
    ps.Stands type [a] v ↔ ∃ p, ps.ofTemplate? a.templateId = some p ∧ p.type.isVpn = true ∧
      p.type.profile? = some type ∧ v = Placement.vpnPlan ps p a.subTemplates := by
  constructor
  · rintro ⟨b, p, hmeets, hvpn⟩
    rcases meets_singleton_iff.mp hmeets with ⟨rfl, hp⟩ | ⟨hsystem, -⟩
    · exact ⟨p, hp, hvpn⟩
    · exact absurd hsystem h
  · rintro ⟨p, hp, hvpn⟩
    exact ⟨a, p, meets_singleton_iff.mpr (.inl ⟨rfl, hp⟩), hvpn⟩

end Parcels

/-! ## Placement -/

namespace Placement

/-- The VPNs placed in profiles of a kind. -/
def parents (placed : Placement) : ProfileType → List ParentPlan
  | .transport => placed.transport
  | .service => placed.service
  | .system | .policyObject => []

variable {ps : Parcels} {type : ProfileType} {v : ParentPlan}

mutual

theorem mem_parents_attach (placed : Placement) : (a : Attachment) →
    (v ∈ (attach ps placed a).parents type ↔ v ∈ placed.parents type ∨ ps.Stands type [a] v)
  | ⟨id, template, subs⟩ => by
    rw [attach]
    cases hp : ps.ofTemplate? id with
    | none =>
      rw [Parcels.stands_singleton_iff (by simp [hp])]
      simp [hp]
    | some p =>
      dsimp only
      cases htype : p.type.profile? with
      | none =>
        rw [Parcels.stands_singleton_iff (by simp [hp, htype])]
        cases type <;> simp [hp, htype, parents]
      | some profile =>
        cases profile with
        | policyObject =>
          rw [Parcels.stands_singleton_iff (by simp [hp, htype])]
          cases type <;> simp [hp, htype, parents, ParcelType.isVpn_iff]
        | system =>
          -- What stands below a system template stands by itself
          rw [mem_parents_attachAll, Parcels.stands_system_iff (by simp [hp, htype])]
          cases type <;> rfl
        | transport | service =>
          rw [Parcels.stands_singleton_iff (by simp [hp, htype])]
          cases type <;> simp [hp, htype, parents, ParcelType.isVpn_iff]

theorem mem_parents_attachAll (placed : Placement) : (as : List Attachment) →
    (v ∈ (attachAll ps placed as).parents type ↔ v ∈ placed.parents type ∨ ps.Stands type as v)
  | [] => by
    rw [attachAll]
    exact ⟨.inl, fun h => h.resolve_right Parcels.not_stands_nil⟩
  | a :: rest => by
    rw [Parcels.stands_cons_iff, attachAll, mem_parents_attachAll, mem_parents_attach, or_assoc]

end

/-- The children of a VPN are what the templates directly below it were converted to. -/
theorem fits_vpnPlan_iff {vpn : Parcel} {subs : List Attachment} : (vpnPlan ps vpn subs).Fits ↔
    ∀ sub ∈ subs, ∀ p, ps.ofTemplate? sub.templateId = some p →
      p.type.profile? = none ∨ p.type.profile? = vpn.type.profile? := by
  simp only [ParentPlan.Fits, vpnPlan, List.mem_filterMap]
  refine ⟨fun h sub hsub p hp => h p ⟨sub, hsub, hp⟩, ?_⟩
  rintro h p ⟨sub, hsub, hp⟩
  exact h sub hsub p hp

/-- The parents placed for a device template are the VPNs that are taken up among its templates. -/
theorem mem_parents_ofTemplate (ps : Parcels) (t : DeviceTemplate) :
    v ∈ (ofTemplate ps t).parents type ↔ ps.Stands type t.templates v := by
  rw [ofTemplate, mem_parents_attachAll]
  refine ⟨fun h => h.resolve_left ?_, .inr⟩
  cases type <;> exact List.not_mem_nil

end Placement

/-! ## Plans -/

section

variable {ps : Parcels} {mark : String} {t : DeviceTemplate} {plan : ProfilePlan}

/-- A profile of a device template has the VPNs placed in profiles of its kind, and if it has
    parcels on their own, it is the system profile. -/
theorem parents_of_mem_devicePlans (h : plan ∈ devicePlans ps mark t) :
    plan.parents = (Placement.ofTemplate ps t).parents plan.type ∧
      ∀ p ∈ plan.parcels, p.type.profile? = some plan.type := by
  have htypes := (walked_contributedFrom ps t.templates 0 t.templates rfl).types
  have hsystem : ∀ p ∈ (Placement.ofTemplate ps t).system, p.type.profile? = some .system := by
    have hgains : (Placement.ofTemplate ps t).system =
        parcelsOf (contributedFrom ps 0 t.templates) :=
      (Placement.gains_attachAll .empty 0 t.templates).system
    intro p hp
    rw [hgains] at hp
    obtain ⟨c, hc, rfl⟩ := List.mem_map.mp hp
    obtain ⟨hc, hsystem⟩ := List.mem_filter.mp hc
    rw [htypes c hc, of_decide_eq_true hsystem]
  obtain ⟨hplan, -⟩ := List.mem_filter.mp h
  simp only [List.mem_cons, List.not_mem_nil, or_false] at hplan
  rcases hplan with rfl | rfl | rfl
  · exact ⟨rfl, hsystem⟩
  · exact ⟨rfl, List.forall_mem_nil _⟩
  · exact ⟨rfl, List.forall_mem_nil _⟩

/-- Every VPN that is placed is a parent in a profile of its kind. -/
theorem exists_devicePlan (mark : String) {v : ParentPlan} {type : ProfileType}
    (hv : v ∈ (Placement.ofTemplate ps t).parents type) :
    ∃ plan ∈ devicePlans ps mark t, v ∈ plan.parents := by
  have hkept : ∀ plan : ProfilePlan, v ∈ plan.parents → (!plan.isEmpty) = true := by
    intro plan hv
    rw [ProfilePlan.isEmpty, List.isEmpty_eq_false_iff.mpr (List.ne_nil_of_mem hv), Bool.and_false]
    rfl
  cases type with
  | policyObject | system => exact absurd hv List.not_mem_nil
  | transport =>
    exact ⟨_, List.mem_filter.mpr ⟨.tail _ (.head _), hkept _ hv⟩, hv⟩
  | service =>
    exact ⟨_, List.mem_filter.mpr ⟨.tail _ (.tail _ (.head _)), hkept _ hv⟩, hv⟩

/-- The profiles of a device template are framed, whatever is attached to it. -/
theorem framed_of_mem_devicePlans (h : plan ∈ devicePlans ps mark t) :
    (withRoutePolicies ps.routePolicy? plan).Framed
      (pulledPolicies ps.routePolicy? plan) where
  policies := by
    intro p hp
    obtain ⟨id, -, hpolicy⟩ := List.mem_filterMap.mp hp
    exact (Parcels.of_routePolicy? hpolicy).2.1
  parcels := ⟨plan.parcels, rfl, (parents_of_mem_devicePlans h).2⟩
  parents := by
    intro v hv
    rw [withRoutePolicies, (parents_of_mem_devicePlans h).1, Placement.mem_parents_ofTemplate] at hv
    obtain ⟨a, p, -, hvpn, htype, rfl⟩ := hv
    exact ⟨hvpn, htype⟩

/-- Their children are in place exactly if what is attached below each VPN fits it. -/
theorem forall_fits_iff :
    (∀ plan ∈ devicePlans ps mark t, ∀ v ∈ plan.parents, v.Fits) ↔
      ∀ a p, ps.Meets t.templates a p → p.type.isVpn = true →
        (Placement.vpnPlan ps p a.subTemplates).Fits := by
  constructor
  · intro h a p hmeets hvpn
    have hstands : ∀ type, p.type.profile? = some type →
        (Placement.vpnPlan ps p a.subTemplates).Fits := by
      intro type htype
      obtain ⟨plan, hplan, hv⟩ := exists_devicePlan mark
        ((Placement.mem_parents_ofTemplate ps t).mpr ⟨a, p, hmeets, hvpn, htype, rfl⟩)
      exact h plan hplan _ hv
    rcases ParcelType.isVpn_iff.mp hvpn with htype | htype <;> exact hstands _ htype
  · intro h plan hplan v hv
    rw [(parents_of_mem_devicePlans hplan).1, Placement.mem_parents_ofTemplate] at hv
    obtain ⟨a, p, hmeets, hvpn, -, rfl⟩ := hv
    exact h a p hmeets hvpn

end

/-- The shared profile is well typed exactly if every policy list was converted to a policy
    object. -/
theorem wellTyped_policyObjectPlan_iff {ps : Parcels} {header : ProfileHeader}
    {tree : CollectedTree} :
    (∀ plan ∈ policyObjectPlan ps (some header) tree, plan.WellTyped []) ↔
      ∀ l ∈ tree.policyLists, ∀ p, ps.get? (.policyList, l.id) = some p →
        p.type.profile? = some .policyObject := by
  have hlists : (∀ p ∈ tree.policyLists.filterMap fun l => ps.get? (.policyList, l.id),
      p.type.profile? = some .policyObject) ↔ ∀ l ∈ tree.policyLists, ∀ p,
        ps.get? (.policyList, l.id) = some p → p.type.profile? = some .policyObject := by
    simp only [List.mem_filterMap]
    refine ⟨fun h l hl p hp => h p ⟨l, hl, hp⟩, ?_⟩
    rintro h p ⟨l, hl, hp⟩
    exact h l hl p hp
  rw [← hlists, policyObjectPlan_eq]
  generalize tree.policyLists.filterMap (fun l => ps.get? (.policyList, l.id)) = lists
  cases lists with
  | nil => exact iff_of_true (by rintro _ ⟨⟩) (List.forall_mem_nil _)
  | cons first rest =>
    constructor
    · intro h
      obtain ⟨own, hown, htypes⟩ := (h _ rfl).parcels
      rw [show first :: rest = own from hown]
      exact htypes
    · rintro h plan ⟨⟩
      exact ⟨⟨List.forall_mem_nil _, ⟨_, rfl, h⟩, List.forall_mem_nil _⟩, List.forall_mem_nil _⟩

/-- In every profile planned for a device template the parcels on their own are policies that were
    pulled in and parcels of its kind, and the parents are VPNs of its kind. All plans are well
    typed exactly if the policy lists were converted to policy objects, and nothing is attached
    directly below a VPN whose type decides for another profile. -/
theorem transform_wellTyped (tree : CollectedTree) (ctx : Context) (mark : String) :
    let ps := (Sweep.ofTree tree ctx).parcels
    let r := (transform tree ctx mark).1
    let drawn := tree.deviceTemplates.flatMap (devicePlans ps mark)
    let pulled := pulledPolicies ps.routePolicy?
    r.profiles = drawn.map (withRoutePolicies ps.routePolicy?) ∧
      (∀ plan ∈ drawn, (withRoutePolicies ps.routePolicy? plan).Framed (pulled plan)) ∧
      (((∀ plan ∈ r.policyObjects, plan.WellTyped []) ∧
          ∀ plan ∈ drawn, (withRoutePolicies ps.routePolicy? plan).WellTyped (pulled plan)) ↔
        (∀ l ∈ tree.policyLists, ∀ p, ps.get? (.policyList, l.id) = some p →
          p.type.profile? = some .policyObject) ∧
        ∀ t ∈ tree.deviceTemplates, ∀ a v, ps.Meets t.templates a v → v.type.isVpn = true →
          ∀ sub ∈ a.subTemplates, ∀ p, ps.ofTemplate? sub.templateId = some p →
            p.type.profile? = none ∨ p.type.profile? = v.type.profile?) := by
  intro ps r drawn pulled
  have hframed : ∀ plan ∈ drawn,
      (withRoutePolicies ps.routePolicy? plan).Framed (pulled plan) := by
    intro plan hplan
    obtain ⟨t, -, hplan⟩ := List.mem_flatMap.mp hplan
    exact framed_of_mem_devicePlans hplan
  have hchildren : (∀ plan ∈ drawn,
      (withRoutePolicies ps.routePolicy? plan).WellTyped (pulled plan)) ↔
        ∀ t ∈ tree.deviceTemplates, ∀ plan ∈ devicePlans ps mark t, ∀ v ∈ plan.parents, v.Fits := by
    constructor
    · intro h t ht plan hplan
      exact (h plan (List.mem_flatMap.mpr ⟨t, ht, hplan⟩)).children
    · intro h plan hplan
      obtain ⟨t, ht, hmem⟩ := List.mem_flatMap.mp hplan
      exact ⟨hframed plan hplan, h t ht plan hmem⟩
  have hr : r = _ := transform_fst tree ctx mark
  rw [hr]
  refine ⟨?_, hframed, ?_⟩
  · rw [List.map_flatMap]
  · rw [hchildren]
    simp only [forall_fits_iff, Placement.fits_vpnPlan_iff]
    exact and_congr_left' wellTyped_policyObjectPlan_iff

/-! ## Parcels out of place -/

/-- A VPN with a logging template below it, and a banner among the policy lists. -/
def strayTree : CollectedTree where
  collectedAt := ⟨0, 0⟩
  featureTemplates := [
    ⟨"vpn", "vpn", none, .featureTemplate, "cisco_vpn", .obj [("vpn-id", .str "10")]⟩,
    ⟨"log", "log", none, .featureTemplate, "cisco_logging", .obj []⟩]
  deviceTemplates := [⟨"d", "site", none, [⟨"vpn", "cisco_vpn", [⟨"log", "cisco_logging", []⟩]⟩]⟩]
  policyLists := [⟨"l", "hello", none, .policyList, "cisco_banner", .obj []⟩]
  policyDefinitions := []
  failures := []
  cancelled := false

/-- One pass converts everything. -/
theorem ofTree_strayTree : Sweep.ofTree strayTree ⟨[], []⟩ =
    ((Sweep.start ⟨[], []⟩).pass strayTree.objects).settle := by
  refine Sweep.ofTree_of_waiting_eq_nil (List.eq_nil_of_length_eq_zero ?_)
  decide +kernel

/-- The logging parcel is planned in the service profile, as a child of the VPN, and the banner in
    that of the policy objects. Both belong into a system profile. Nothing is reported. -/
theorem transform_strayTree :
    let r := (transform strayTree ⟨[], []⟩ "").1
    (r.plans.map fun plan => (plan.type, plan.members.map fun p => p.type.profile?)) =
        [(.policyObject, [some .system]), (.service, [some .service, some .system])] ∧
      (r.profiles.map fun plan => plan.parents.map fun v => v.children.map Parcel.type) =
        [[[.logging]]] ∧
      r.failures = [] := by
  rw [transform_fst, ofTree_strayTree]
  decide +kernel

end ProfileMigration
