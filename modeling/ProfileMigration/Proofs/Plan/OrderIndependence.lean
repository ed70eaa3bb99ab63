/-
  ProfileMigration.Proofs.Plan.OrderIndependence

  The order in which objects were collected does not show in the plans:

    Parcels.Agree               -- the same parcel under every origin
    devicePlans_congr           -- plans only depend on the parcel of each origin and policy
    FixedPoint.agree_of_perm    -- fixed points of the same objects agree
    transform_perm              -- trees that differ in the order of objects have the same
                                   plans, and the same failures up to order

  Both runs end in the least closed context of their objects, and the order of objects has no
  part in that.
-/
import ProfileMigration.Proofs.Plan.FixedPoint
import ProfileMigration.Proofs.Plan.Notes

namespace ProfileMigration

/-! ## What plans depend on -/

namespace Parcels

/-- The same parcel under every origin. -/
def Agree (ps qs : Parcels) : Prop := ∀ origin, ps.get? origin = qs.get? origin

theorem Agree.ofTemplate? {ps qs : Parcels} (h : ps.Agree qs) (id : String) :
    ps.ofTemplate? id = qs.ofTemplate? id :=
  h _

end Parcels

namespace Placement

variable {ps qs : Parcels}

theorem vpnPlan_congr (h : ps.Agree qs) (p : Parcel) (subs : List Attachment) :
    vpnPlan ps p subs = vpnPlan qs p subs := by
  rw [vpnPlan]
  congr 1
  exact List.filterMap_congr fun sub _ => h.ofTemplate? sub.templateId

mutual

theorem attach_congr (h : ps.Agree qs) (placed : Placement) :
    (a : Attachment) → attach ps placed a = attach qs placed a
  | ⟨id, _, subs⟩ => by
    unfold attach
    rw [h.ofTemplate? id]
    cases qs.ofTemplate? id with
    | none => rfl
    | some p =>
      dsimp only
      cases p.type.profile? with
      | none => rfl
      | some type =>
        cases type with
        | policyObject => rfl
        | system => exact attachAll_congr h _ subs
        | transport => simp only [vpnPlan_congr h p subs]
        | service => simp only [vpnPlan_congr h p subs]

theorem attachAll_congr (h : ps.Agree qs) (placed : Placement) :
    (as : List Attachment) → attachAll ps placed as = attachAll qs placed as
  | [] => rfl
  | a :: rest => by
    unfold attachAll
    rw [attach_congr h placed a, attachAll_congr h _ rest]

end

theorem ofTemplate_congr (h : ps.Agree qs) (t : DeviceTemplate) :
    ofTemplate ps t = ofTemplate qs t :=
  attachAll_congr h empty t.templates

end Placement

section Plans

variable {ps qs : Parcels}

theorem misplacedFailures_congr (h : ps.Agree qs) (t : DeviceTemplate) :
    misplacedFailures ps t = misplacedFailures qs t := by
  unfold misplacedFailures
  rw [Placement.ofTemplate_congr h t]

theorem devicePlans_congr (h : ps.Agree qs) (mark : String) (t : DeviceTemplate) :
    devicePlans ps mark t = devicePlans qs mark t := by
  unfold devicePlans
  rw [Placement.ofTemplate_congr h t]

theorem policyObjectPlan_congr (h : ps.Agree qs) (header : Option ProfileHeader)
    {t t' : CollectedTree} (hlists : t.policyLists = t'.policyLists) :
    policyObjectPlan ps header t = policyObjectPlan qs header t' := by
  unfold policyObjectPlan
  rw [hlists, List.filterMap_congr fun l _ => h (.policyList, l.id)]

end Plans

/-! ## Fixed points of the same objects -/

namespace Sweep

namespace FixedPoint

variable {objects objects' : List LegacyObject} {s s' : Sweep}

/-- The contexts of fixed points of the same objects have the same objects. -/
theorem within_of_perm (h : FixedPoint objects s) (h' : FixedPoint objects' s')
    (hperm : objects.Perm objects') : s.ctx.Within s'.ctx :=
  h.least s'.ctx fun o ho => h'.closed o (hperm.mem_iff.mp ho)

theorem outcome_eq_of_perm (h : FixedPoint objects s) (h' : FixedPoint objects' s')
    (hperm : objects.Perm objects') (o : LegacyObject) : o.outcome s.ctx = o.outcome s'.ctx :=
  outcome_congr (h'.within_of_perm h hperm.symm) (h.within_of_perm h' hperm) o

/-- Whatever outcome an object has at the end of one run, one has at the end of the other. -/
theorem exists_outcome_iff_of_perm (h : FixedPoint objects s) (h' : FixedPoint objects' s')
    (hperm : objects.Perm objects') (P : LegacyObject → Converted Parcel → Prop) :
    (∃ o ∈ objects, P o (o.outcome s.ctx)) ↔ ∃ o ∈ objects', P o (o.outcome s'.ctx) := by
  constructor
  · rintro ⟨o, ho, hP⟩
    refine ⟨o, hperm.mem_iff.mp ho, ?_⟩
    rw [← outcome_eq_of_perm h h' hperm]
    exact hP
  · rintro ⟨o, ho, hP⟩
    refine ⟨o, hperm.mem_iff.mpr ho, ?_⟩
    rw [outcome_eq_of_perm h h' hperm]
    exact hP

/-- Where origins are distinct, a parcel is the conversion of the object of its origin. -/
theorem get?_eq_some_iff (h : FixedPoint objects s)
    (hkeys : (objects.map LegacyObject.origin).Nodup) {origin : Origin} {p : Parcel} :
    s.parcels.get? origin = some p ↔
      ∃ o ∈ objects, o.origin = origin ∧ o.outcome s.ctx = .ok p := by
  constructor
  · exact h.outcome_of_get?
  · rintro ⟨o, ho, rfl, hout⟩
    exact h.get?_of_outcome ho hout (List.count_eq_one_of_mem hkeys (List.mem_map_of_mem ho))

theorem agree_of_perm (h : FixedPoint objects s) (h' : FixedPoint objects' s')
    (hperm : objects.Perm objects') (hkeys : (objects.map LegacyObject.origin).Nodup) :
    s.parcels.Agree s'.parcels := by
  have hkeys' : (objects'.map LegacyObject.origin).Nodup :=
    (hperm.map LegacyObject.origin).nodup_iff.mp hkeys
  intro origin
  apply Option.ext
  intro p
  rw [h.get?_eq_some_iff hkeys, h'.get?_eq_some_iff hkeys']
  exact h.exists_outcome_iff_of_perm h' hperm fun o x => o.origin = origin ∧ x = .ok p

theorem failures_perm (h : FixedPoint objects s) (h' : FixedPoint objects' s')
    (hperm : objects.Perm objects') : s.failures.Perm s'.failures := by
  have hsame : failureIn s.ctx = failureIn s'.ctx := by
    funext o
    rw [failureIn, failureIn, outcome_eq_of_perm h h' hperm]
  have hmiddle := hperm.filterMap (failureIn s.ctx)
  rw [hsame] at hmiddle
  refine h.failures.trans ?_
  rw [hsame]
  exact hmiddle.trans h'.failures.symm

/-- Without collisions of generated identifiers, a policy is found under its own. -/
theorem routePolicy?_eq_some_iff (h : FixedPoint objects s)
    (hkeys : (objects.map LegacyObject.origin).Nodup)
    (hids : ∀ o ∈ objects, ∀ o' ∈ objects,
      generatedId o.category o.id = generatedId o'.category o'.id → o.origin = o'.origin)
    {id : Uuid} {p : Parcel} :
    s.parcels.routePolicy? id = some p ↔
      ∃ o ∈ objects, o.outcome s.ctx = .ok p ∧ p.type = .routePolicy ∧ p.id = some id := by
  have hmem : ∀ q, q ∈ s.parcels.map Prod.snd ↔ ∃ o ∈ objects, o.outcome s.ctx = .ok q := by
    intro q
    rw [List.mem_map]
    constructor
    · rintro ⟨entry, hentry, rfl⟩
      obtain ⟨o, ho, -, hout⟩ := h.source entry hentry
      exact ⟨o, ho, hout⟩
    · rintro ⟨o, ho, hout⟩
      exact ⟨(o.origin, q), Entries.mem_of_get? ((h.get?_eq_some_iff hkeys).mpr
        ⟨o, ho, rfl, hout⟩), rfl⟩
  rw [Parcels.routePolicy?]
  -- The first policy that is found is any policy that can be found
  constructor
  · intro hfind
    obtain ⟨o, ho, hout⟩ := (hmem p).mp (List.mem_of_find?_eq_some hfind)
    have hpolicy := List.find?_some hfind
    simp only [decide_eq_true_eq] at hpolicy
    exact ⟨o, ho, hout, hpolicy⟩
  · rintro ⟨o, ho, hout, htype, hid⟩
    cases hfind : (s.parcels.map Prod.snd).find?
        fun q => decide (q.type = .routePolicy ∧ q.id = some id) with
    | none =>
      have hnone := List.find?_eq_none.mp hfind p ((hmem p).mpr ⟨o, ho, hout⟩)
      exact absurd (decide_eq_true ⟨htype, hid⟩) hnone
    | some q =>
      -- Two policies under one identifier are of objects with one origin, which are the same
      obtain ⟨o', ho', hout'⟩ := (hmem q).mp (List.mem_of_find?_eq_some hfind)
      have hpolicy := List.find?_some hfind
      simp only [decide_eq_true_eq] at hpolicy
      obtain ⟨-, hid'⟩ := hpolicy
      obtain ⟨_, _, _, -, -, hp⟩ := convert_eq_ok_iff.mp hout
      obtain ⟨_, _, _, -, -, hq⟩ := convert_eq_ok_iff.mp hout'
      have hsame : generatedId o'.category o'.id = generatedId o.category o.id := by
        rw [hp] at hid
        rw [hq] at hid'
        exact Option.some.inj (hid'.trans hid.symm)
      have honce := List.count_eq_one_of_mem hkeys (List.mem_map_of_mem ho)
      rw [eq_of_count_origin honce ho ho' (hids o' ho' o ho hsame), hout] at hout'
      rw [Except.ok.inj hout']

theorem routePolicy?_eq_of_perm (h : FixedPoint objects s) (h' : FixedPoint objects' s')
    (hperm : objects.Perm objects') (hkeys : (objects.map LegacyObject.origin).Nodup)
    (hids : ∀ o ∈ objects, ∀ o' ∈ objects,
      generatedId o.category o.id = generatedId o'.category o'.id → o.origin = o'.origin) :
    s.parcels.routePolicy? = s'.parcels.routePolicy? := by
  have hkeys' : (objects'.map LegacyObject.origin).Nodup :=
    (hperm.map LegacyObject.origin).nodup_iff.mp hkeys
  have hids' : ∀ o ∈ objects', ∀ o' ∈ objects',
      generatedId o.category o.id = generatedId o'.category o'.id → o.origin = o'.origin :=
    fun o ho o' ho' => hids o (hperm.mem_iff.mpr ho) o' (hperm.mem_iff.mpr ho')
  funext id
  apply Option.ext
  intro p
  rw [h.routePolicy?_eq_some_iff hkeys hids, h'.routePolicy?_eq_some_iff hkeys' hids']
  exact h.exists_outcome_iff_of_perm h' hperm fun _ x =>
    x = .ok p ∧ p.type = .routePolicy ∧ p.id = some id

end FixedPoint

end Sweep

/-! ## Trees that differ in the order of objects -/

/-- Trees with the same device templates and policy lists, whose other objects are the same up
    to order, have the same plans, and the same failures up to order. Objects must have origins
    of their own, and generated identifiers that do not collide. -/
theorem transform_perm {t t' : CollectedTree} (notes : List (String × Note)) (mark : String)
    (hdevices : t.deviceTemplates = t'.deviceTemplates) (hlists : t.policyLists = t'.policyLists)
    (hfeatures : t.featureTemplates.Perm t'.featureTemplates)
    (hdefinitions : t.policyDefinitions.Perm t'.policyDefinitions)
    (hkeys : (t.objects.map LegacyObject.origin).Nodup)
    (hids : ∀ o ∈ t.objects, ∀ o' ∈ t.objects,
      generatedId o.category o.id = generatedId o'.category o'.id → o.origin = o'.origin) :
    let r := (transform t ⟨[], notes⟩ mark).1
    let r' := (transform t' ⟨[], notes⟩ mark).1
    r.policyObjects = r'.policyObjects ∧ r.profiles = r'.profiles ∧
      r.failures.Perm r'.failures := by
  have hperm : t.objects.Perm t'.objects := by
    rw [CollectedTree.objects]
    rw [hlists]
    exact (hfeatures.append_right _).append hdefinitions
  have hfixed := (Sweep.fixedPoint_ofTree t notes).1
  have hfixed' := (Sweep.fixedPoint_ofTree t' notes).1
  have hagree := hfixed.agree_of_perm hfixed' hperm hkeys
  have hpolicies := hfixed.routePolicy?_eq_of_perm hfixed' hperm hkeys hids
  intro r r'
  have hr : r = _ := transform_fst t ⟨[], notes⟩ mark
  have hr' : r' = _ := transform_fst t' ⟨[], notes⟩ mark
  rw [hr, hr']
  refine ⟨policyObjectPlan_congr hagree (some (policyObjectHeader mark)) hlists, ?_, ?_⟩
  · show t.deviceTemplates.flatMap _ = t'.deviceTemplates.flatMap _
    rw [hdevices, hpolicies]
    congr 1
    funext template
    rw [devicePlans_congr hagree]
  · show (_ ++ t.deviceTemplates.flatMap _).Perm (_ ++ t'.deviceTemplates.flatMap _)
    rw [hdevices]
    refine (hfixed.failures_perm hfixed' hperm).append (.of_eq ?_)
    congr 1
    funext template
    exact misplacedFailures_congr hagree template

/-- A device template with a protocol under a VPN, the two collected in either order, and a
    policy that is collected after the neighbour that refers to it. -/
def crossedTree (features : List LegacyObject) : CollectedTree where
  collectedAt := ⟨0, 0⟩
  featureTemplates := features
  deviceTemplates := [⟨"d", "site", none,
    [⟨"v", "cisco_vpn", [⟨"g", "cisco_bgp", []⟩]⟩]⟩]
  policyLists := []
  policyDefinitions := [⟨"p", "policy", none, .policyDefinition, "vedgeRoute",
    .obj [("sequences", .arr [.obj [("sequenceId", .str "1")]])]⟩]
  failures := []
  cancelled := false

/-- A protocol whose one neighbour takes routes by the policy of `crossedTree`. -/
def crossedBgp : LegacyObject :=
  ⟨"g", "bgp", none, .featureTemplate, "cisco_bgp", .obj [("as-num", .str "65000"),
    ("neighbor", .arr [.obj [("address", .str "10.0.0.1"), ("remote-as", .str "65001"),
      ("address-family", .arr [.obj [("family-type", .str "ipv4-unicast"),
        ("route-policy", .arr [.obj [("pol-name", .str "p")]])]])]])]⟩

/-- The VPN of `crossedTree`. -/
def crossedVpn : LegacyObject :=
  ⟨"v", "vpn", none, .featureTemplate, "cisco_vpn", .obj [("vpn-id", .str "10")]⟩

/-- The protocol may come before its VPN or after it. -/
theorem transform_crossedTree :
    let r := (transform (crossedTree [crossedBgp, crossedVpn]) ⟨[], []⟩ "new_").1
    let r' := (transform (crossedTree [crossedVpn, crossedBgp]) ⟨[], []⟩ "new_").1
    r.policyObjects = r'.policyObjects ∧ r.profiles = r'.profiles ∧
      r.failures.Perm r'.failures := by
  have hkeys : ((crossedTree [crossedBgp, crossedVpn]).objects.map LegacyObject.origin).Nodup := by
    decide
  have hids : ∀ o ∈ (crossedTree [crossedBgp, crossedVpn]).objects,
      ∀ o' ∈ (crossedTree [crossedBgp, crossedVpn]).objects,
      generatedId o.category o.id = generatedId o'.category o'.id → o.origin = o'.origin := by
    decide +kernel
  exact transform_perm [] "new_" rfl rfl (List.Perm.swap _ _ []) (List.Perm.refl _) hkeys hids

end ProfileMigration
