/-
  ProfileMigration.Proofs.Plan.ReferenceClosure

  Everything a planned parcel refers to is planned before it:

    CollectedTree.WellFiled     -- lists and definitions are where they belong
    targeted_or_named_of_convert -- what a parcel refers to is a target or called by a variable
    FixedPoint.target_of_reference -- what a parcel refers to has been converted
    Placement.drawn_ofTemplate  -- placed parcels are those of feature templates
    TransformResult.Shares      -- an object of the shared profile
    ProfilePlan.Grounded        -- a plan whose references are planned before they are needed
    grounded_transform          -- all plans of a well-filed tree
-/
import ProfileMigration.Proofs.Plan.FixedPoint
import ProfileMigration.Proofs.Plan.Notes
import ProfileMigration.Proofs.Template.Targets

namespace ProfileMigration

/-! ## Converted objects -/

/-- Lists and definitions are where they belong and of kinds that belong there, and no device
    variable is called like an identifier. -/
structure CollectedTree.WellFiled (t : CollectedTree) : Prop where
  lists : ∀ o ∈ t.objects, o.category = .policyList ↔ o ∈ t.policyLists
  listKinds : ∀ o ∈ t.policyLists,
    o.kind ∈ Template.listTypes.map Prod.fst ∨ template? o.kind = none
  definitions : ∀ o ∈ t.objects, o.category = .policyDefinition ↔ o ∈ t.policyDefinitions
  definitionKinds : ∀ o ∈ t.policyDefinitions, o.kind = "vedgeRoute" ∨ template? o.kind = none
  names : ∀ o ∈ t.objects, ∀ name ∈ Legacy.variableNames o.definition,
    Uuid.ofText? name = none

theorem Parcel.mem_references_iff {p : Parcel} {id : Uuid} :
    id ∈ p.references ↔ id ∈ p.data.objectIds :=
  List.mem_eraseDups

section Conversion

variable {o : LegacyObject} {id : Uuid} {ctx : Context} {p : Parcel}

theorem id_of_convert (h : convert o id ctx = .ok p) : p.id = some id := by
  obtain ⟨_, _, _, -, -, rfl⟩ := convert_eq_ok_iff.mp h
  rfl

/-- A converted object refers to targets of its type, and to what its variables are called. -/
theorem targeted_or_named_of_convert (h : convert o id ctx = .ok p) {r : Uuid}
    (hr : r ∈ p.references) :
    Targeted ctx p.type r ∨ ∃ name ∈ Legacy.variableNames o.definition,
      Uuid.ofText? name = some r := by
  obtain ⟨t, type, data, ht, hcontent, rfl⟩ := convert_eq_ok_iff.mp h
  have hvalues : (Legacy.normalize t.hints o.definition).RefersOnly
      fun r => ∃ name ∈ Legacy.variableNames o.definition, Uuid.ofText? name = some r :=
    Legacy.refersOnly_normalize t.hints fun name hname id hid => ⟨name, hname, hid⟩
  have hdata := Template.yields_content t (template?_mem ht) ctx _ hvalues _ hcontent
  exact hdata r (Parcel.mem_references_iff.mp hr)

/-- Without variables called like identifiers it refers to targets of its type only. -/
theorem targeted_of_convert (hnames : ∀ name ∈ Legacy.variableNames o.definition,
    Uuid.ofText? name = none) (h : convert o id ctx = .ok p) {r : Uuid} (hr : r ∈ p.references) :
    Targeted ctx p.type r := by
  rcases targeted_or_named_of_convert h hr with htarget | ⟨name, hname, hid⟩
  · exact htarget
  · rw [hnames name hname] at hid
    cases hid

/-- A policy list becomes a parcel of a list type. -/
theorem type_mem_of_convert_list (hkind : o.kind ∈ Template.listTypes.map Prod.fst)
    (h : convert o id ctx = .ok p) : p.type ∈ Template.listTypes.map Prod.snd := by
  obtain ⟨t, type, data, ht, hcontent, rfl⟩ := convert_eq_ok_iff.mp h
  have htemplate : template? o.kind = some ⟨Template.listTypes.map (·.1),
      Template.policyListHints, fun _ values => Template.policyList values⟩ := by
    generalize o.kind = kind at hkind
    simp only [Template.listTypes, List.map_cons, List.map_nil, List.mem_cons,
      List.not_mem_nil, or_false] at hkind
    rcases hkind with rfl | rfl | rfl | rfl | rfl | rfl | rfl | rfl <;> rfl
  rw [htemplate] at ht
  obtain rfl := Option.some.inj ht
  exact (Template.yields_policyList _ _ hcontent).1

/-- A route policy becomes a parcel of its type. -/
theorem type_of_convert_routePolicy (hkind : o.kind = "vedgeRoute")
    (h : convert o id ctx = .ok p) : p.type = .routePolicy := by
  obtain ⟨t, type, data, ht, hcontent, rfl⟩ := convert_eq_ok_iff.mp h
  have htemplate : template? o.kind = some (Template.referring "vedgeRoute"
      Template.routePolicyHints .routePolicy Template.routePolicy) := by
    rw [hkind]
    rfl
  rw [htemplate] at ht
  obtain rfl := Option.some.inj ht
  have hyields : ∀ values, Yields (fun made : ParcelType × FieldMap => made.1 = .routePolicy)
      ((Template.routePolicy ctx values).map (ParcelType.routePolicy, ·)) :=
    fun values => (Yields.any _).map fun _ _ => rfl
  exact hyields _ _ hcontent

end Conversion

/-! ## Targets have been converted -/

namespace Sweep.FixedPoint

variable {t : CollectedTree} {s : Sweep} {o : LegacyObject} {p q : Parcel}

/-- What a converted object refers to has been converted. -/
theorem target_of_reference (h : FixedPoint t.objects s) (hfiled : t.WellFiled)
    (ho : o ∈ t.objects) (hout : o.outcome s.ctx = .ok p) {r : Uuid} (hr : r ∈ p.references) :
    ∃ category origin q, p.type.target? = some category ∧
      s.parcels.get? (category, origin) = some q ∧ q.id = some r := by
  obtain ⟨category, origin, htarget, hresolve⟩ :=
    targeted_of_convert (hfiled.names o ho) hout hr
  obtain ⟨hmade, rfl⟩ := h.resolve_eq_some_iff.mp hresolve
  obtain ⟨q, hq⟩ := Option.isSome_iff_exists.mp hmade
  obtain ⟨o', -, horigin, hout'⟩ := h.outcome_of_get? hq
  refine ⟨category, origin, q, htarget, hq, ?_⟩
  cases horigin
  exact id_of_convert hout'

/-- The parcel of a policy list is of a list type, and planned for the shared profile. -/
theorem list_of_get? (h : FixedPoint t.objects s) (hfiled : t.WellFiled) {origin : String}
    (hq : s.parcels.get? (.policyList, origin) = some q) :
    q.type ∈ Template.listTypes.map Prod.snd ∧
      q ∈ t.policyLists.filterMap fun l => s.parcels.get? (.policyList, l.id) := by
  obtain ⟨o, ho, horigin, hout⟩ := h.outcome_of_get? hq
  have hcategory : o.category = .policyList := congrArg Prod.fst horigin
  have hid : o.id = origin := congrArg Prod.snd horigin
  have hlist := (hfiled.lists o ho).mp hcategory
  constructor
  · rcases hfiled.listKinds o hlist with hkind | hnone
    · exact type_mem_of_convert_list hkind hout
    · obtain ⟨t, _, _, ht, -⟩ := convert_eq_ok_iff.mp hout
      rw [hnone] at ht
      cases ht
  · exact List.mem_filterMap.mpr ⟨o, hlist, by rw [hid]; exact hq⟩

/-- The parcel of a policy definition is a route policy. -/
theorem type_of_definition (h : FixedPoint t.objects s) (hfiled : t.WellFiled) {origin : String}
    (hq : s.parcels.get? (.policyDefinition, origin) = some q) : q.type = .routePolicy := by
  obtain ⟨o, ho, horigin, hout⟩ := h.outcome_of_get? hq
  have hcategory : o.category = .policyDefinition := congrArg Prod.fst horigin
  rcases hfiled.definitionKinds o ((hfiled.definitions o ho).mp hcategory) with hkind | hnone
  · exact type_of_convert_routePolicy hkind hout
  · obtain ⟨t, _, _, ht, -⟩ := convert_eq_ok_iff.mp hout
    rw [hnone] at ht
    cases ht

end Sweep.FixedPoint

/-! ## Placed parcels -/

/-- A parcel of a feature template. -/
def Parcels.Drawn (ps : Parcels) (p : Parcel) : Prop := ∃ id, ps.ofTemplate? id = some p

/-- Everything that is placed in a profile is of a feature template. -/
structure Placement.Drawn (ps : Parcels) (placed : Placement) : Prop where
  system : ∀ p ∈ placed.system, ps.Drawn p
  transport : ∀ v ∈ placed.transport, ∀ p ∈ v.members, ps.Drawn p
  service : ∀ v ∈ placed.service, ∀ p ∈ v.members, ps.Drawn p

namespace Placement

variable {ps : Parcels}

theorem drawn_vpnPlan {p : Parcel} (hp : ps.Drawn p) (subs : List Attachment) :
    ∀ q ∈ (vpnPlan ps p subs).members, ps.Drawn q := by
  refine List.forall_mem_cons.mpr ⟨hp, fun q hq => ?_⟩
  obtain ⟨sub, -, hsub⟩ := List.mem_filterMap.mp hq
  exact ⟨sub.templateId, hsub⟩

mutual

theorem Drawn.attach {placed : Placement} (h : placed.Drawn ps) :
    (a : Attachment) → (attach ps placed a).Drawn ps
  | ⟨id, _, subs⟩ => by
    rw [Placement.attach]
    cases hp : ps.ofTemplate? id with
    | none => exact h
    | some p =>
      have hvpn := drawn_vpnPlan ⟨id, hp⟩ subs
      dsimp only
      cases p.type.profile? with
      | none => exact ⟨h.system, h.transport, h.service⟩
      | some type =>
        cases type with
        | policyObject => exact ⟨h.system, h.transport, h.service⟩
        | system =>
          -- What is attached to a system template is placed like the template itself
          have hsystem : ∀ q ∈ placed.system ++ [p], ps.Drawn q :=
            List.forall_mem_append.mpr ⟨h.system, List.forall_mem_singleton.mpr ⟨id, hp⟩⟩
          have hplaced : Drawn ps { placed with system := placed.system ++ [p] } :=
            ⟨hsystem, h.transport, h.service⟩
          exact Drawn.attachAll hplaced subs
        | transport =>
          refine ⟨h.system, ?_, h.service⟩
          exact List.forall_mem_append.mpr ⟨h.transport, List.forall_mem_singleton.mpr hvpn⟩
        | service =>
          refine ⟨h.system, h.transport, ?_⟩
          exact List.forall_mem_append.mpr ⟨h.service, List.forall_mem_singleton.mpr hvpn⟩

theorem Drawn.attachAll {placed : Placement} (h : placed.Drawn ps) :
    (as : List Attachment) → (attachAll ps placed as).Drawn ps
  | [] => h
  | a :: rest => Drawn.attachAll (Drawn.attach h a) rest

end

theorem drawn_empty (ps : Parcels) : empty.Drawn ps where
  system _ hp := absurd hp List.not_mem_nil
  transport _ hv := absurd hv List.not_mem_nil
  service _ hv := absurd hv List.not_mem_nil

theorem drawn_ofTemplate (ps : Parcels) (t : DeviceTemplate) : (ofTemplate ps t).Drawn ps :=
  (drawn_empty ps).attachAll t.templates

end Placement

/-- Before policies are added, everything in the plans of a device template is of a feature
    template. -/
theorem drawn_of_mem_devicePlans {ps : Parcels} {mark : String} {t : DeviceTemplate}
    {plan : ProfilePlan} (h : plan ∈ devicePlans ps mark t) : ∀ p ∈ plan.members, ps.Drawn p := by
  have hdrawn := Placement.drawn_ofTemplate ps t
  have hparents : ∀ vs : List ParentPlan, (∀ v ∈ vs, ∀ p ∈ v.members, ps.Drawn p) →
      ∀ p ∈ [] ++ vs.flatMap ParentPlan.members, ps.Drawn p := by
    intro vs hvs p hp
    obtain ⟨v, hv, hpv⟩ := List.mem_flatMap.mp hp
    exact hvs v hv p hpv
  have hplan := (List.mem_filter.mp h).1
  simp only [List.mem_cons, List.not_mem_nil, or_false] at hplan
  rcases hplan with rfl | rfl | rfl
  · intro p hp
    rw [ProfilePlan.members, List.flatMap_nil, List.append_nil] at hp
    exact hdrawn.system p hp
  · exact hparents _ hdrawn.transport
  · exact hparents _ hdrawn.service

/-! ## Grounded plans -/

/-- An object of the shared profile. -/
def TransformResult.Shares (r : TransformResult) (id : Uuid) : Prop :=
  ∃ plan, r.policyObjects = some plan ∧ ∃ q ∈ plan.members, q.id = some id

/-- References in a plan are to objects known beforehand, or to parcels of the plan that come
    before all those that refer to them: the policies in front, which refer to nothing else in
    the plan. -/
def ProfilePlan.Grounded (known : Uuid → Prop) (plan : ProfilePlan) : Prop :=
  ∃ pulled own, plan.parcels = pulled ++ own ∧
    (∀ p ∈ pulled, ∀ id ∈ p.references, known id) ∧
    ∀ p ∈ own ++ plan.parents.flatMap ParentPlan.members, ∀ id ∈ p.references,
      known id ∨ ∃ q ∈ pulled, q.id = some id

theorem ProfilePlan.mem_references {plan : ProfilePlan} {p : Parcel} (hp : p ∈ plan.members)
    {id : Uuid} (hid : id ∈ p.references) : id ∈ plan.references := by
  refine List.mem_flatMap.mpr ⟨p, ?_, hid⟩
  rcases List.mem_append.mp hp with hown | hparent
  · exact List.mem_append_right _ hown
  · exact List.mem_append_left _ hparent

theorem ParcelType.category_of_target? {type : ParcelType} {category : Category}
    (h : type.target? = some category) :
    category = .policyList ∨ category = .policyDefinition := by
  cases type <;> cases h
  · exact .inr rfl
  · exact .inr rfl
  · exact .inl rfl

theorem Parcels.of_routePolicy? {ps : Parcels} {id : Uuid} {q : Parcel}
    (h : ps.routePolicy? id = some q) :
    (∃ entry ∈ ps, entry.2 = q) ∧ q.type = .routePolicy ∧ q.id = some id := by
  rw [Parcels.routePolicy?] at h
  have hfound := List.find?_some h
  simp only [decide_eq_true_eq] at hfound
  exact ⟨List.mem_map.mp (List.mem_of_find?_eq_some h), hfound⟩

theorem Parcels.exists_routePolicy? {ps : Parcels} {origin : Origin} {id : Uuid} {q : Parcel}
    (hq : ps.get? origin = some q) (htype : q.type = .routePolicy) (hid : q.id = some id) :
    ∃ q', ps.routePolicy? id = some q' := by
  refine Option.isSome_iff_exists.mp ?_
  rw [Parcels.routePolicy?]
  rw [List.find?_isSome]
  exact ⟨q, List.mem_map.mpr ⟨_, Entries.mem_of_get? hq, rfl⟩, decide_eq_true ⟨htype, hid⟩⟩

namespace Sweep.FixedPoint

variable {t : CollectedTree} {s : Sweep}

/-- Pulled policies refer to policy lists, and everything else to lists and pulled policies. -/
theorem grounded_withRoutePolicies (h : FixedPoint t.objects s) (hfiled : t.WellFiled)
    {plan : ProfilePlan} (hdrawn : ∀ p ∈ plan.members, s.parcels.Drawn p) :
    (withRoutePolicies s.parcels.routePolicy? plan).Grounded fun id =>
      ∃ q ∈ t.policyLists.filterMap fun l => s.parcels.get? (.policyList, l.id),
        q.id = some id := by
  refine ⟨pulledPolicies s.parcels.routePolicy? plan, plan.parcels, rfl, ?_, ?_⟩
  · -- A pulled parcel is a route policy, and refers to lists
    intro p hp id hid
    obtain ⟨id', -, hpolicy⟩ := List.mem_filterMap.mp hp
    obtain ⟨⟨entry, hentry, rfl⟩, htype, -⟩ := Parcels.of_routePolicy? hpolicy
    obtain ⟨o, ho, -, hout⟩ := h.source entry hentry
    obtain ⟨category, origin, q, htarget, hq, hqid⟩ := h.target_of_reference hfiled ho hout hid
    rw [htype] at htarget
    cases htarget
    exact ⟨q, (h.list_of_get? hfiled hq).2, hqid⟩
  · -- Any other is of a feature template, and the policies it refers to have been pulled
    intro p hp id hid
    obtain ⟨template, hp'⟩ := hdrawn p hp
    obtain ⟨o, ho, -, hout⟩ := h.outcome_of_get? hp'
    obtain ⟨category, origin, q, htarget, hq, hqid⟩ := h.target_of_reference hfiled ho hout hid
    rcases ParcelType.category_of_target? htarget with rfl | rfl
    · exact .inl ⟨q, (h.list_of_get? hfiled hq).2, hqid⟩
    · obtain ⟨q', hpolicy⟩ :=
        Parcels.exists_routePolicy? hq (h.type_of_definition hfiled hq) hqid
      refine .inr ⟨q', List.mem_filterMap.mpr ⟨id, ?_, hpolicy⟩,
        (Parcels.of_routePolicy? hpolicy).2.2⟩
      exact List.mem_eraseDups.mpr (ProfilePlan.mem_references hp hid)

/-- A policy list refers to nothing. -/
theorem references_of_list (h : FixedPoint t.objects s) (hfiled : t.WellFiled) {p : Parcel}
    (hp : p ∈ t.policyLists.filterMap fun l => s.parcels.get? (.policyList, l.id)) {id : Uuid} :
    id ∉ p.references := by
  intro hid
  obtain ⟨l, -, hl⟩ := List.mem_filterMap.mp hp
  obtain ⟨o, ho, -, hout⟩ := h.outcome_of_get? hl
  obtain ⟨category, _, _, htarget, -⟩ := h.target_of_reference hfiled ho hout hid
  rw [Template.target?_of_mem_listTypes (h.list_of_get? hfiled hl).1] at htarget
  cases htarget

end Sweep.FixedPoint

/-- There is a shared profile exactly if a list was converted, with those that were. -/
theorem policyObjectPlan_eq (ps : Parcels) (header : ProfileHeader) (tree : CollectedTree) :
    policyObjectPlan ps (some header) tree =
      match tree.policyLists.filterMap fun l => ps.get? (.policyList, l.id) with
      | [] => none
      | first :: rest =>
        some ⟨header.name, header.description, .policyObject, first :: rest, []⟩ := by
  rw [policyObjectPlan]
  cases tree.policyLists.filterMap fun l => ps.get? (.policyList, l.id) <;> rfl

theorem policyObjectPlan_eq_some {ps : Parcels} {header : ProfileHeader} {t : CollectedTree}
    {plan : ProfilePlan} (h : policyObjectPlan ps (some header) t = some plan) :
    plan.members = t.policyLists.filterMap fun l => ps.get? (.policyList, l.id) := by
  rw [policyObjectPlan_eq] at h
  cases hlists : t.policyLists.filterMap fun l => ps.get? (.policyList, l.id) with
  | nil =>
    rw [hlists] at h
    cases h
  | cons first rest =>
    rw [hlists] at h
    obtain rfl := Option.some.inj h
    rw [ProfilePlan.members, List.flatMap_nil, List.append_nil]

/-- Every converted list is planned for the shared profile. -/
theorem exists_policyObjectPlan {ps : Parcels} (header : ProfileHeader) {t : CollectedTree}
    {q : Parcel} (hq : q ∈ t.policyLists.filterMap fun l => ps.get? (.policyList, l.id)) :
    ∃ plan, policyObjectPlan ps (some header) t = some plan ∧ q ∈ plan.members := by
  rw [policyObjectPlan_eq]
  cases hlists : t.policyLists.filterMap fun l => ps.get? (.policyList, l.id) with
  | nil =>
    rw [hlists] at hq
    cases hq
  | cons first rest =>
    rw [hlists] at hq
    exact ⟨_, rfl, List.mem_append_left _ hq⟩

/-- In the plans of a well-filed tree, everything that a parcel refers to is planned before the
    parcel, in its own plan or in the shared one. -/
theorem grounded_transform {t : CollectedTree} (hfiled : t.WellFiled)
    (notes : List (String × Note)) (mark : String) :
    let r := (transform t ⟨[], notes⟩ mark).1
    (∀ plan, r.policyObjects = some plan → plan.Grounded fun _ => False) ∧
      ∀ plan ∈ r.profiles, plan.Grounded r.Shares := by
  have hfixed := (Sweep.fixedPoint_ofTree t notes).1
  intro r
  have hr : r = _ := transform_fst t ⟨[], notes⟩ mark
  have hshared : r.policyObjects = policyObjectPlan (Sweep.ofTree t ⟨[], notes⟩).parcels
      (some (policyObjectHeader mark)) t := by
    rw [hr]
  constructor
  · -- Lists refer to nothing, so none of them has to come first
    intro plan hplan
    refine ⟨[], plan.parcels, rfl, nofun, fun p hp id hid => ?_⟩
    have hp : p ∈ plan.members := hp
    rw [hshared] at hplan
    rw [policyObjectPlan_eq_some hplan] at hp
    exact absurd hid (hfixed.references_of_list hfiled hp)
  · -- Whatever refers to a list finds it in the shared profile
    intro plan hplan
    rw [hr] at hplan
    obtain ⟨template, -, hplan⟩ := List.mem_flatMap.mp hplan
    obtain ⟨bare, hbare, rfl⟩ := List.mem_map.mp hplan
    obtain ⟨pulled, own, hparcels, hpulled, hown⟩ :=
      hfixed.grounded_withRoutePolicies hfiled (drawn_of_mem_devicePlans hbare)
    have hshares : ∀ id, (∃ q ∈ t.policyLists.filterMap fun l =>
        (Sweep.ofTree t ⟨[], notes⟩).parcels.get? (.policyList, l.id), q.id = some id) →
        r.Shares id := by
      rintro id ⟨q, hq, hid⟩
      obtain ⟨shared, hplan, hmem⟩ := exists_policyObjectPlan (policyObjectHeader mark) hq
      exact ⟨shared, hshared.trans hplan, q, hmem, hid⟩
    refine ⟨pulled, own, hparcels, fun p hp id hid => hshares id (hpulled p hp id hid), ?_⟩
    exact fun p hp id hid => (hown p hp id hid).imp (hshares id) fun hq => hq

end ProfileMigration
