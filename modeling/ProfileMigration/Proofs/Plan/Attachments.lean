/-
  ProfileMigration.Proofs.Plan.Attachments

  Which of the templates attached to a device template are placed:

    Attached                        -- a template stands below a path of others, at any depth
    Parcels.Reaches                 -- the paths that placement follows
    Parcels.Found                   -- a parcel of a template at the end of such a path
    Placement.mem_attachAll         -- placement keeps what it has, and adds what is found
    Placement.mem_ofTemplate        -- for a device template it is what is found, and no more
    transform_places                -- which is planned, or reported as misplaced
    transform_lostTree              -- what stands below any other path is not heard of again

  A path is followed through system templates, and ends at a VPN. Below a template that was not
  converted, below a parcel under a VPN and below a misplaced one nothing is looked for.
-/
import ProfileMigration.Proofs.Plan.Notes

namespace ProfileMigration

/-! ## Paths -/

/-- A template is attached below a path of others, the outermost first. -/
def Attached : List Attachment → List Attachment → Attachment → Prop
  | forest, [], a => a ∈ forest
  | forest, b :: above, a => b ∈ forest ∧ Attached b.subTemplates above a

theorem not_attached_nil {above : List Attachment} {a : Attachment} : ¬ Attached [] above a := by
  cases above with
  | nil => exact List.not_mem_nil
  | cons b above =>
    rintro ⟨hb, -⟩
    exact absurd hb List.not_mem_nil

theorem attached_cons_iff {a b : Attachment} {rest above : List Attachment} :
    Attached (a :: rest) above b ↔ Attached [a] above b ∨ Attached rest above b := by
  cases above with
  | nil =>
    rw [Attached, Attached, Attached, List.mem_cons, List.mem_singleton]
  | cons c above =>
    rw [Attached, Attached, Attached, List.mem_cons, List.mem_singleton, or_and_right]

namespace Parcels

/-- Placement gets to the templates below a path: to those of a system template, on their own,
    and to those of a VPN, but not further down. -/
def Reaches (ps : Parcels) : List Attachment → Prop
  | [] => True
  | b :: rest =>
    match (ps.ofTemplate? b.templateId).bind fun p => p.type.profile? with
    | some .system => Reaches ps rest
    | some .transport | some .service => rest = []
    | some .policyObject | none => False

/-- A parcel is that of a template in a forest to which placement gets. -/
def Found (ps : Parcels) (forest : List Attachment) (p : Parcel) : Prop :=
  ∃ above a, Attached forest above a ∧ ps.Reaches above ∧ ps.ofTemplate? a.templateId = some p

variable {ps : Parcels} {p : Parcel}

theorem not_found_nil : ¬ ps.Found [] p := by
  rintro ⟨_, _, h, -, -⟩
  exact not_attached_nil h

theorem found_cons_iff {a : Attachment} {rest : List Attachment} :
    ps.Found (a :: rest) p ↔ ps.Found [a] p ∨ ps.Found rest p := by
  constructor
  · rintro ⟨above, b, h, hfound⟩
    rcases attached_cons_iff.mp h with h | h
    · exact .inl ⟨above, b, h, hfound⟩
    · exact .inr ⟨above, b, h, hfound⟩
  · rintro (⟨above, b, h, hfound⟩ | ⟨above, b, h, hfound⟩)
    · exact ⟨above, b, attached_cons_iff.mpr (.inl h), hfound⟩
    · exact ⟨above, b, attached_cons_iff.mpr (.inr h), hfound⟩

/-- What is found below one template, by what it was converted to. -/
def FoundBelow (ps : Parcels) (subs : List Attachment) (p : Parcel) : Option ProfileType → Prop
  | some .system => ps.Found subs p
  | some .transport | some .service => ∃ sub ∈ subs, ps.ofTemplate? sub.templateId = some p
  | some .policyObject | none => False

theorem found_singleton_iff {id type : String} {subs : List Attachment} :
    ps.Found [⟨id, type, subs⟩] p ↔ ps.ofTemplate? id = some p ∨
      ps.FoundBelow subs p ((ps.ofTemplate? id).bind fun q => q.type.profile?) := by
  constructor
  · rintro ⟨above, a, h, hreach, hp⟩
    cases above with
    | nil =>
      rw [List.mem_singleton.mp h] at hp
      exact .inl hp
    | cons b above =>
      obtain ⟨hb, h⟩ := h
      obtain rfl := List.mem_singleton.mp hb
      rw [Reaches] at hreach
      dsimp only at hreach h
      cases htype : (ps.ofTemplate? id).bind fun q => q.type.profile? with
      | none =>
        rw [htype] at hreach
        exact hreach.elim
      | some type =>
        rw [htype] at hreach
        cases type with
        | policyObject => exact hreach.elim
        | system => exact .inr ⟨above, a, h, hreach, hp⟩
        | transport | service =>
          obtain rfl := hreach
          exact .inr ⟨a, h, hp⟩
  · rintro (hp | hbelow)
    · exact ⟨[], _, List.mem_singleton.mpr rfl, trivial, hp⟩
    · cases htype : (ps.ofTemplate? id).bind fun q => q.type.profile? with
      | none =>
        rw [htype] at hbelow
        exact hbelow.elim
      | some profile =>
        rw [htype] at hbelow
        cases profile with
        | policyObject => exact hbelow.elim
        | system =>
          obtain ⟨above, a, h, hreach, hp⟩ := hbelow
          refine ⟨⟨id, type, subs⟩ :: above, a, ⟨List.mem_singleton.mpr rfl, h⟩, ?_, hp⟩
          rw [Reaches, htype]
          exact hreach
        | transport | service =>
          obtain ⟨sub, hsub, hp⟩ := hbelow
          refine ⟨[⟨id, type, subs⟩], sub, ⟨List.mem_singleton.mpr rfl, hsub⟩, ?_, hp⟩
          rw [Reaches, htype]

end Parcels

/-! ## Placement -/

namespace Placement

variable {ps : Parcels} {q : Parcel}

/-- Every parcel that is placed or misplaced. -/
def members (placed : Placement) : List Parcel :=
  placed.system ++ placed.transport.flatMap ParentPlan.members ++
    placed.service.flatMap ParentPlan.members ++ placed.misplaced

theorem mem_members_iff {placed : Placement} :
    q ∈ placed.members ↔ q ∈ placed.system ∨ q ∈ placed.transport.flatMap ParentPlan.members ∨
      q ∈ placed.service.flatMap ParentPlan.members ∨ q ∈ placed.misplaced := by
  rw [members, List.mem_append, List.mem_append, List.mem_append, or_assoc, or_assoc]

section Growing

variable {placed : Placement} {p : Parcel} {v : ParentPlan}

theorem mem_members_system :
    q ∈ ({ placed with system := placed.system ++ [p] } : Placement).members ↔
      q ∈ placed.members ∨ p = q := by
  simp only [mem_members_iff, List.mem_append, List.mem_singleton]
  grind

theorem mem_members_transport :
    q ∈ ({ placed with transport := placed.transport ++ [v] } : Placement).members ↔
      q ∈ placed.members ∨ q ∈ v.members := by
  simp only [mem_members_iff, List.flatMap_append, List.flatMap_singleton, List.mem_append]
  grind

theorem mem_members_service :
    q ∈ ({ placed with service := placed.service ++ [v] } : Placement).members ↔
      q ∈ placed.members ∨ q ∈ v.members := by
  simp only [mem_members_iff, List.flatMap_append, List.flatMap_singleton, List.mem_append]
  grind

theorem mem_members_misplaced :
    q ∈ ({ placed with misplaced := placed.misplaced ++ [p] } : Placement).members ↔
      q ∈ placed.members ∨ p = q := by
  simp only [mem_members_iff, List.mem_append, List.mem_singleton]
  grind

end Growing

/-- A VPN takes the parcels of its direct sub-templates, whatever they are. -/
theorem mem_vpnPlan_iff {p : Parcel} {subs : List Attachment} :
    q ∈ (vpnPlan ps p subs).members ↔
      p = q ∨ ∃ sub ∈ subs, ps.ofTemplate? sub.templateId = some q := by
  rw [vpnPlan, ParentPlan.members, List.mem_cons, List.mem_filterMap, eq_comm]

mutual

theorem mem_attach (placed : Placement) : (a : Attachment) →
    (q ∈ (attach ps placed a).members ↔ q ∈ placed.members ∨ ps.Found [a] q)
  | ⟨id, type, subs⟩ => by
    rw [attach, Parcels.found_singleton_iff]
    cases hp : ps.ofTemplate? id with
    | none => simp [Parcels.FoundBelow]
    | some p =>
      rw [Option.bind_some, Option.some.injEq]
      dsimp only
      cases p.type.profile? with
      | none => rw [mem_members_misplaced, Parcels.FoundBelow, or_false]
      | some profile =>
        cases profile with
        | policyObject => rw [mem_members_misplaced, Parcels.FoundBelow, or_false]
        | system =>
          -- What is attached to a system template is placed like the template itself
          rw [mem_attachAll, mem_members_system, Parcels.FoundBelow, or_assoc]
        | transport => rw [mem_members_transport, mem_vpnPlan_iff, Parcels.FoundBelow]
        | service => rw [mem_members_service, mem_vpnPlan_iff, Parcels.FoundBelow]

theorem mem_attachAll (placed : Placement) : (as : List Attachment) →
    (q ∈ (attachAll ps placed as).members ↔ q ∈ placed.members ∨ ps.Found as q)
  | [] => by
    rw [attachAll]
    exact ⟨.inl, fun h => h.resolve_right Parcels.not_found_nil⟩
  | a :: rest => by
    rw [Parcels.found_cons_iff, attachAll, mem_attachAll, mem_attach, or_assoc]

end

/-- For a device template, placement has exactly what is found among its templates. -/
theorem mem_ofTemplate (ps : Parcels) (t : DeviceTemplate) :
    q ∈ (ofTemplate ps t).members ↔ ps.Found t.templates q := by
  rw [ofTemplate, mem_attachAll]
  refine ⟨fun h => h.resolve_left ?_, .inr⟩
  exact List.not_mem_nil

end Placement

/-! ## Plans -/

/-- A plan with a parcel in it is not left out. -/
theorem ProfilePlan.isEmpty_eq_false {plan : ProfilePlan} {q : Parcel} (h : q ∈ plan.members) :
    plan.isEmpty = false := by
  rw [isEmpty, Bool.and_eq_false_iff, List.isEmpty_eq_false_iff, List.isEmpty_eq_false_iff]
  rcases List.mem_append.mp h with h | h
  · exact .inl (List.ne_nil_of_mem h)
  · obtain ⟨v, hv, -⟩ := List.mem_flatMap.mp h
    exact .inr (List.ne_nil_of_mem hv)

/-- What is placed in a device template is planned in one of its profiles, or misplaced. -/
theorem mem_devicePlans_iff (ps : Parcels) (mark : String) (t : DeviceTemplate) {q : Parcel} :
    ((∃ plan ∈ devicePlans ps mark t, q ∈ plan.members) ∨
        q ∈ (Placement.ofTemplate ps t).misplaced) ↔
      q ∈ (Placement.ofTemplate ps t).members := by
  have hkept : ∀ plans : List ProfilePlan, (∃ plan ∈ plans.filter fun p => !p.isEmpty,
      q ∈ plan.members) ↔ ∃ plan ∈ plans, q ∈ plan.members := by
    intro plans
    constructor
    · rintro ⟨plan, hplan, hq⟩
      exact ⟨plan, (List.mem_filter.mp hplan).1, hq⟩
    · rintro ⟨plan, hplan, hq⟩
      refine ⟨plan, List.mem_filter.mpr ⟨hplan, ?_⟩, hq⟩
      rw [ProfilePlan.isEmpty_eq_false hq]
      rfl
  rw [devicePlans, hkept, Placement.mem_members_iff]
  simp [ProfilePlan.members, or_assoc]

/-- Of the templates attached to a device template, those that placement gets to have their
    parcels in a profile planned for it, or are reported for it by name. It has no other
    parcels but the policies that these refer to. -/
theorem transform_places (tree : CollectedTree) (ctx : Context) (mark : String)
    {t : DeviceTemplate} (ht : t ∈ tree.deviceTemplates) (q : Parcel) :
    let ps := (Sweep.ofTree tree ctx).parcels
    let r := (transform tree ctx mark).1
    ps.Found t.templates q ↔
      (∃ plan ∈ devicePlans ps mark t,
        withRoutePolicies ps.routePolicy? plan ∈ r.profiles ∧ q ∈ plan.members) ∨
      (q ∈ (Placement.ofTemplate ps t).misplaced ∧
        ∃ f ∈ r.failures, f.origin = t.id ∧ f.name = q.name ∧ f.category = .featureTemplate ∧
          f.kind = q.type.tag ∧
          f.error = q.type.tag ++ " must be attached under a VPN in '" ++ t.name ++ "'") := by
  intro ps r
  have hr : r = _ := transform_fst tree ctx mark
  have hprofiles : ∀ plan ∈ devicePlans ps mark t,
      withRoutePolicies ps.routePolicy? plan ∈ r.profiles := by
    intro plan hplan
    rw [hr]
    exact List.mem_flatMap.mpr ⟨t, ht, List.mem_map_of_mem hplan⟩
  have hfailures : ∀ p ∈ (Placement.ofTemplate ps t).misplaced,
      misplacedFailure t p ∈ r.failures := by
    intro p hp
    rw [hr]
    refine List.mem_append_right _ (List.mem_flatMap.mpr ⟨t, ht, ?_⟩)
    exact List.mem_map_of_mem hp
  rw [← Placement.mem_ofTemplate ps t, ← mem_devicePlans_iff ps mark t]
  constructor
  · rintro (⟨plan, hplan, hq⟩ | hq)
    · exact .inl ⟨plan, hplan, hprofiles plan hplan, hq⟩
    · exact .inr ⟨hq, _, hfailures q hq, rfl, rfl, rfl, rfl, rfl⟩
  · rintro (⟨plan, hplan, -, hq⟩ | ⟨hq, -⟩)
    · exact .inl ⟨plan, hplan, hq⟩
    · exact .inr hq

/-! ## What placement does not get to -/

/-- A device template with one logging template in three places: below a template that is not
    supported, below an interface of a VPN, and below an interface outside a VPN. -/
def lostTree : CollectedTree where
  collectedAt := ⟨0, 0⟩
  featureTemplates := [
    ⟨"snmp", "snmp", none, .featureTemplate, "cisco_snmp", .obj []⟩,
    ⟨"vpn", "vpn", none, .featureTemplate, "cisco_vpn", .obj [("vpn-id", .str "10")]⟩,
    ⟨"ge", "ge", none, .featureTemplate, "cisco_vpn_interface",
      .obj [("if-name", .str "ge0/1")]⟩,
    ⟨"log", "log", none, .featureTemplate, "cisco_logging", .obj []⟩]
  deviceTemplates :=
    let log : Attachment := ⟨"log", "cisco_logging", []⟩
    [⟨"d", "site", none, [⟨"snmp", "cisco_snmp", [log]⟩,
      ⟨"vpn", "cisco_vpn", [⟨"ge", "cisco_vpn_interface", [log]⟩]⟩,
      ⟨"ge", "cisco_vpn_interface", [log]⟩]⟩]
  policyLists := []
  policyDefinitions := []
  failures := []
  cancelled := false

/-- One pass converts all that can be converted. -/
theorem ofTree_lostTree : Sweep.ofTree lostTree ⟨[], []⟩ =
    ((Sweep.start ⟨[], []⟩).pass lostTree.objects).settle := by
  refine Sweep.ofTree_of_waiting_eq_nil (List.eq_nil_of_length_eq_zero ?_)
  decide +kernel

/-- The interface is placed under the VPN. -/
theorem transform_lostTree_interface :
    let ps := (Sweep.ofTree lostTree ⟨[], []⟩).parcels
    let r := (transform lostTree ⟨[], []⟩ "").1
    ∃ t ∈ lostTree.deviceTemplates, ∃ q, ps.ofTemplate? "ge" = some q ∧
      ((∃ plan ∈ devicePlans ps "" t,
        withRoutePolicies ps.routePolicy? plan ∈ r.profiles ∧ q ∈ plan.members) ∨
      (q ∈ (Placement.ofTemplate ps t).misplaced ∧
        ∃ f ∈ r.failures, f.origin = t.id ∧ f.name = q.name ∧ f.category = .featureTemplate ∧
          f.kind = q.type.tag ∧
          f.error = q.type.tag ++ " must be attached under a VPN in '" ++ t.name ++ "'")) := by
  intro ps r
  have hvpn : (ps.ofTemplate? "vpn").bind (fun p => p.type.profile?) = some .service := by
    show ((Sweep.ofTree lostTree ⟨[], []⟩).parcels.ofTemplate? "vpn").bind _ = _
    rw [ofTree_lostTree]
    decide +kernel
  have hge : (ps.ofTemplate? "ge").isSome := by
    show ((Sweep.ofTree lostTree ⟨[], []⟩).parcels.ofTemplate? "ge").isSome = true
    rw [ofTree_lostTree]
    decide +kernel
  obtain ⟨q, hq⟩ := Option.isSome_iff_exists.mp hge
  refine ⟨_, List.mem_singleton.mpr rfl, q, hq, ?_⟩
  refine (transform_places lostTree ⟨[], []⟩ "" (List.mem_singleton.mpr rfl) q).mp ?_
  refine ⟨[⟨"vpn", "cisco_vpn", [⟨"ge", "cisco_vpn_interface", [⟨"log", "cisco_logging", []⟩]⟩]⟩],
    ⟨"ge", "cisco_vpn_interface", [⟨"log", "cisco_logging", []⟩]⟩, ?_, ?_, hq⟩
  · simp [Attached]
  · rw [Parcels.Reaches, hvpn]

/-- The logging template is converted, and attached to the device template. It is in no plan,
    and no failure names it. -/
theorem transform_lostTree :
    let s := Sweep.ofTree lostTree ⟨[], []⟩
    let r := (transform lostTree ⟨[], []⟩ "").1
    (s.parcels.ofTemplate? "log").map Parcel.name = some "log" ∧
      r.policyObjects = none ∧
      (r.profiles.map fun plan => plan.members.map Parcel.name) = [["vpn", "ge"]] ∧
      (r.failures.map fun f => (f.origin, f.name)) = [("snmp", "snmp"), ("d", "ge")] := by
  rw [transform_fst, ofTree_lostTree]
  decide +kernel

end ProfileMigration
