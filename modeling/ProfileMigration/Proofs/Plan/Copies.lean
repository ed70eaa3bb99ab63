/-
  ProfileMigration.Proofs.Plan.Copies

  What plans hold, as copies of what is attached, each with the place that it comes from:

    nodeAt?                 -- the template at a place among attached ones
    Copy                    -- a parcel, and the place of the template that it is copied for
    Contribution            -- what one template puts into a profile: a parcel, or a VPN
    contributed             -- what attached templates put into profiles, in order
    Walked                  -- every copy is for a template of its own, in the order of a walk
    Placement.gains_attach  -- placement adds what is contributed
    transform_copies        -- plans hold the contributions, and the policies in front
    transform_twiceListedTree -- policy lists of one id all have the parcel of one of them

  A place says which template it is among those attached, then which of its sub-templates, and
  so on. Places in lexicographic order are templates in the order of a depth-first walk, so one
  increasing list of places says at once that none is taken twice and that order is kept.
-/
import ProfileMigration.Proofs.Plan.ReferenceClosure

namespace ProfileMigration

/-! ## Places -/

/-- The template at a place below another one. -/
def Attachment.at? : Attachment → List Nat → Option Attachment
  | a, [] => some a
  | ⟨_, _, subs⟩, i :: place => subs[i]?.bind fun sub => sub.at? place

/-- The template at a place among attached ones. -/
def nodeAt? (forest : List Attachment) : List Nat → Option Attachment
  | [] => none
  | i :: place => forest[i]?.bind fun a => a.at? place

theorem Attachment.at?_cons (a : Attachment) (i : Nat) (place : List Nat) :
    a.at? (i :: place) = nodeAt? a.subTemplates (i :: place) := by
  cases a
  rfl

theorem nodeAt?_cons {forest : List Attachment} {i : Nat} {a : Attachment}
    (h : forest[i]? = some a) (place : List Nat) : nodeAt? forest (i :: place) = a.at? place := by
  rw [nodeAt?, h, Option.bind_some]

/-- A parcel, and the place of the template that it is copied for. -/
structure Copy where
  place : List Nat
  parcel : Parcel

/-- What a template puts into a profile: a parcel on its own, or a VPN with the parcels of its
    sub-templates. -/
structure Contribution where
  type : ProfileType
  head : Copy
  children : List Copy

/-- The same copy, where places are told from above a template of this number. -/
def Copy.below (i : Nat) (x : Copy) : Copy := { x with place := i :: x.place }

namespace Contribution

/-- All copies in a contribution. -/
def copies (c : Contribution) : List Copy := c.head :: c.children

/-- A contribution as a parent of a profile. -/
def parent (c : Contribution) : ParentPlan := ⟨c.head.parcel, c.children.map Copy.parcel⟩

/-- The same contribution, where places are told from above. -/
def below (i : Nat) (c : Contribution) : Contribution :=
  ⟨c.type, c.head.below i, c.children.map (Copy.below i)⟩

theorem parent_below (i : Nat) (c : Contribution) : (c.below i).parent = c.parent := by
  rw [parent, below, List.map_map]
  rfl

theorem flatMap_copies_below (i : Nat) (cs : List Contribution) :
    (cs.map (below i)).flatMap copies = (cs.flatMap copies).map (Copy.below i) := by
  rw [List.flatMap_map, List.map_flatMap]
  rfl

end Contribution

/-! ## Contributions -/

/-- The parcels of a system profile. -/
def parcelsOf (cs : List Contribution) : List Parcel :=
  (cs.filter fun c => c.type = .system).map fun c => c.head.parcel

/-- The parents of another profile. -/
def parentsOf (type : ProfileType) (cs : List Contribution) : List ParentPlan :=
  (cs.filter fun c => c.type = type).map Contribution.parent

theorem parcelsOf_append (cs cs' : List Contribution) :
    parcelsOf (cs ++ cs') = parcelsOf cs ++ parcelsOf cs' := by
  rw [parcelsOf, List.filter_append, List.map_append]
  rfl

theorem parentsOf_append (type : ProfileType) (cs cs' : List Contribution) :
    parentsOf type (cs ++ cs') = parentsOf type cs ++ parentsOf type cs' := by
  rw [parentsOf, List.filter_append, List.map_append]
  rfl

theorem parcelsOf_below (i : Nat) (cs : List Contribution) :
    parcelsOf (cs.map (Contribution.below i)) = parcelsOf cs := by
  rw [parcelsOf, List.filter_map, List.map_map]
  rfl

theorem parentsOf_below (type : ProfileType) (i : Nat) (cs : List Contribution) :
    parentsOf type (cs.map (Contribution.below i)) = parentsOf type cs := by
  rw [parentsOf, List.filter_map, List.map_map]
  exact List.map_congr_left fun c _ => c.parent_below i

/-- The converted ones among the direct sub-templates of the template at a place, in order. -/
def subCopies (ps : Parcels) (place : List Nat) (subs : List Attachment) : List Copy :=
  subs.zipIdx.filterMap fun sub =>
    (ps.ofTemplate? sub.1.templateId).map fun p => ⟨place ++ [sub.2], p⟩

mutual

/-- What an attached template and those below it put into profiles. -/
def contributed (ps : Parcels) : Attachment → List Contribution
  | ⟨id, _, subs⟩ =>
    match ps.ofTemplate? id with
    | none => []
    | some p =>
      match p.type.profile? with
      | some .system => ⟨.system, ⟨[], p⟩, []⟩ :: contributedFrom ps 0 subs
      | some .transport => [⟨.transport, ⟨[], p⟩, subCopies ps [] subs⟩]
      | some .service => [⟨.service, ⟨[], p⟩, subCopies ps [] subs⟩]
      | some .policyObject | none => []

/-- What attached templates put into profiles, where the first of them has this number. -/
def contributedFrom (ps : Parcels) (i : Nat) : List Attachment → List Contribution
  | [] => []
  | a :: rest => (contributed ps a).map (Contribution.below i) ++ contributedFrom ps (i + 1) rest

end

/-! ## Placement -/

namespace Placement

/-- One placement has the contributions after all that the other one has. -/
structure Gains (placed : Placement) (cs : List Contribution) (placed' : Placement) : Prop where
  system : placed'.system = placed.system ++ parcelsOf cs
  transport : placed'.transport = placed.transport ++ parentsOf .transport cs
  service : placed'.service = placed.service ++ parentsOf .service cs

namespace Gains

variable {placed placed' placed'' : Placement} {cs cs' : List Contribution}

theorem trans (h : Gains placed cs placed') (h' : Gains placed' cs' placed'') :
    Gains placed (cs ++ cs') placed'' where
  system := by rw [h'.system, h.system, List.append_assoc, parcelsOf_append]
  transport := by rw [h'.transport, h.transport, List.append_assoc, parentsOf_append]
  service := by rw [h'.service, h.service, List.append_assoc, parentsOf_append]

theorem below (h : Gains placed cs placed') (i : Nat) :
    Gains placed (cs.map (Contribution.below i)) placed' where
  system := by rw [h.system, parcelsOf_below]
  transport := by rw [h.transport, parentsOf_below]
  service := by rw [h.service, parentsOf_below]

theorem of_nothing (hsystem : placed'.system = placed.system)
    (htransport : placed'.transport = placed.transport)
    (hservice : placed'.service = placed.service) : Gains placed [] placed' where
  system := hsystem.trans (List.append_nil _).symm
  transport := htransport.trans (List.append_nil _).symm
  service := hservice.trans (List.append_nil _).symm

end Gains

variable {ps : Parcels}

theorem map_parcel_subCopies (ps : Parcels) (place : List Nat) (subs : List Attachment) :
    (subCopies ps place subs).map Copy.parcel =
      subs.filterMap fun sub => ps.ofTemplate? sub.templateId := by
  have hall : (fun sub : Attachment × Nat => ps.ofTemplate? sub.1.templateId) =
      (fun sub : Attachment => ps.ofTemplate? sub.templateId) ∘ Prod.fst := rfl
  rw [subCopies, List.map_filterMap]
  simp only [Option.map_map, Function.comp_def, Option.map_id']
  rw [hall, ← List.filterMap_map, List.zipIdx_map_fst]

theorem parent_vpn (type : ProfileType) (p : Parcel) (subs : List Attachment) :
    (⟨type, ⟨[], p⟩, subCopies ps [] subs⟩ : Contribution).parent = vpnPlan ps p subs := by
  rw [Contribution.parent, map_parcel_subCopies, vpnPlan]

mutual

theorem gains_attach (placed : Placement) : (a : Attachment) →
    Gains placed (contributed ps a) (attach ps placed a)
  | ⟨id, type, subs⟩ => by
    rw [attach, contributed]
    cases hp : ps.ofTemplate? id with
    | none => exact .of_nothing rfl rfl rfl
    | some p =>
      dsimp only
      cases p.type.profile? with
      | none => exact .of_nothing rfl rfl rfl
      | some profile =>
        cases profile with
        | policyObject => exact .of_nothing rfl rfl rfl
        | system =>
          -- The template itself comes before those below it
          have hself : Gains placed [⟨.system, ⟨[], p⟩, []⟩]
              { placed with system := placed.system ++ [p] } :=
            ⟨rfl, (List.append_nil _).symm, (List.append_nil _).symm⟩
          exact hself.trans (gains_attachAll _ 0 subs)
        | transport =>
          refine ⟨(List.append_nil _).symm, ?_, (List.append_nil _).symm⟩
          rw [← parent_vpn .transport]
          rfl
        | service =>
          refine ⟨(List.append_nil _).symm, (List.append_nil _).symm, ?_⟩
          rw [← parent_vpn .service]
          rfl

theorem gains_attachAll (placed : Placement) (i : Nat) : (as : List Attachment) →
    Gains placed (contributedFrom ps i as) (attachAll ps placed as)
  | [] => .of_nothing rfl rfl rfl
  | a :: rest => by
    rw [attachAll, contributedFrom]
    exact ((gains_attach placed a).below i).trans (gains_attachAll _ (i + 1) rest)

end

end Placement

/-! ## Copies and their templates -/

/-- Contributions of converted templates. Each copy is for a template of its own, and they come in
    the order of a depth-first walk. A VPN has its converted sub-templates. -/
structure Walked (ps : Parcels) (node? : List Nat → Option Attachment) (cs : List Contribution) :
    Prop where
  order : (cs.flatMap Contribution.copies).Pairwise fun x y => x.place < y.place
  nodes : ∀ x ∈ cs.flatMap Contribution.copies, ∃ a, node? x.place = some a ∧
    ps.ofTemplate? a.templateId = some x.parcel
  types : ∀ c ∈ cs, c.head.parcel.type.profile? = some c.type
  children : ∀ c ∈ cs, c.type ≠ .system → ∃ a, node? c.head.place = some a ∧
    c.children = subCopies ps c.head.place a.subTemplates

namespace Walked

variable {ps : Parcels} {node? : List Nat → Option Attachment} {cs cs' : List Contribution}

theorem nil (ps : Parcels) (node? : List Nat → Option Attachment) : Walked ps node? [] :=
  ⟨.nil, nofun, nofun, nofun⟩

/-- Contributions after others whose places come before theirs. -/
theorem append (h : Walked ps node? cs) (h' : Walked ps node? cs')
    (hbefore : ∀ x ∈ cs.flatMap Contribution.copies, ∀ y ∈ cs'.flatMap Contribution.copies,
      x.place < y.place) : Walked ps node? (cs ++ cs') where
  order := by
    rw [List.flatMap_append]
    exact List.pairwise_append.mpr ⟨h.order, h'.order, hbefore⟩
  nodes := by
    rw [List.flatMap_append]
    exact List.forall_mem_append.mpr ⟨h.nodes, h'.nodes⟩
  types := List.forall_mem_append.mpr ⟨h.types, h'.types⟩
  children := List.forall_mem_append.mpr ⟨h.children, h'.children⟩

/-- The same contributions, where each template is found at another place. -/
theorem congr {node?' : List Nat → Option Attachment} (h : Walked ps node? cs)
    (hsame : ∀ x ∈ cs.flatMap Contribution.copies, node?' x.place = node? x.place) :
    Walked ps node?' cs where
  order := h.order
  nodes x hx := by
    rw [hsame x hx]
    exact h.nodes x hx
  types := h.types
  children c hc htype := by
    rw [hsame c.head (List.mem_flatMap.mpr ⟨c, hc, List.mem_cons_self⟩)]
    exact h.children c hc htype

/-- What is contributed below a template among others. -/
theorem below {forest : List Attachment} {i : Nat} {a : Attachment} (h : Walked ps a.at? cs)
    (ha : forest[i]? = some a) : Walked ps (nodeAt? forest) (cs.map (Contribution.below i)) where
  order := by
    rw [Contribution.flatMap_copies_below, List.pairwise_map]
    exact h.order.imp fun hlt => List.cons_lt_cons_iff.mpr (.inr ⟨rfl, hlt⟩)
  nodes := by
    rw [Contribution.flatMap_copies_below]
    refine List.forall_mem_map.mpr fun x hx => ?_
    rw [Copy.below, nodeAt?_cons ha]
    exact h.nodes x hx
  types := List.forall_mem_map.mpr h.types
  children := by
    refine List.forall_mem_map.mpr fun c hc htype => ?_
    obtain ⟨b, hb, hchildren⟩ := h.children c hc htype
    refine ⟨b, ?_, ?_⟩
    · rw [Contribution.below, Copy.below, nodeAt?_cons ha]
      exact hb
    · rw [Contribution.below, hchildren, subCopies, List.map_filterMap]
      simp only [Option.map_map]
      rfl

end Walked

/-- What is copied for the direct sub-templates of a VPN is below the VPN. -/
theorem exists_of_mem_subCopies {ps : Parcels} {place : List Nat} {subs : List Attachment}
    {x : Copy} (hx : x ∈ subCopies ps place subs) :
    ∃ i sub, x.place = place ++ [i] ∧ subs[i]? = some sub ∧
      ps.ofTemplate? sub.templateId = some x.parcel := by
  obtain ⟨⟨sub, i⟩, hmem, hx⟩ := List.mem_filterMap.mp hx
  obtain ⟨p, hp, rfl⟩ := Option.map_eq_some_iff.mp hx
  exact ⟨i, sub, rfl, List.mem_zipIdx_iff_getElem?.mp hmem, hp⟩

theorem pairwise_subCopies (ps : Parcels) (subs : List Attachment) :
    (subCopies ps [] subs).Pairwise fun x y => x.place < y.place := by
  have hnumbers : (subs.zipIdx.map Prod.snd).Pairwise (· < ·) := by
    rw [List.zipIdx_map_snd]
    exact List.pairwise_lt_range'
  refine List.pairwise_filterMap.mpr ((List.pairwise_map.mp hnumbers).imp fun hlt x hx y hy => ?_)
  obtain ⟨-, -, rfl⟩ := Option.map_eq_some_iff.mp hx
  obtain ⟨-, -, rfl⟩ := Option.map_eq_some_iff.mp hy
  exact List.cons_lt_cons_iff.mpr (.inl hlt)

namespace Walked

variable {ps : Parcels}

/-- A VPN, with the copies for its sub-templates. -/
theorem vpn {id template : String} {subs : List Attachment} {p : Parcel} {type : ProfileType}
    (hp : ps.ofTemplate? id = some p) (htype : p.type.profile? = some type) :
    Walked ps (Attachment.at? ⟨id, template, subs⟩) [⟨type, ⟨[], p⟩, subCopies ps [] subs⟩] where
  order := by
    rw [List.flatMap_singleton]
    refine .cons (fun x hx => ?_) (pairwise_subCopies ps subs)
    obtain ⟨i, sub, hplace, -⟩ := exists_of_mem_subCopies hx
    rw [hplace]
    exact List.nil_lt_cons i []
  nodes := by
    rw [List.flatMap_singleton]
    refine List.forall_mem_cons.mpr ⟨⟨_, rfl, hp⟩, fun x hx => ?_⟩
    obtain ⟨i, sub, hplace, hsub, hparcel⟩ := exists_of_mem_subCopies hx
    refine ⟨sub, ?_, hparcel⟩
    rw [hplace, List.nil_append, Attachment.at?_cons, nodeAt?_cons hsub]
    rfl
  types := List.forall_mem_singleton.mpr htype
  children := List.forall_mem_singleton.mpr fun _ => ⟨_, rfl, rfl⟩

/-- A system template, with what those below it put into profiles. -/
theorem system {a : Attachment} {p : Parcel} {cs : List Contribution}
    (hp : ps.ofTemplate? a.templateId = some p) (htype : p.type.profile? = some .system)
    (h : Walked ps (nodeAt? a.subTemplates) cs) :
    Walked ps a.at? (⟨.system, ⟨[], p⟩, []⟩ :: cs) := by
  have hinner : ∀ x ∈ cs.flatMap Contribution.copies, ∃ i place, x.place = i :: place := by
    intro x hx
    obtain ⟨b, hb, -⟩ := h.nodes x hx
    cases hplace : x.place with
    | nil =>
      rw [hplace] at hb
      cases hb
    | cons i place => exact ⟨i, place, rfl⟩
  have hself : Walked ps a.at? [⟨.system, ⟨[], p⟩, []⟩] := by
    refine ⟨List.pairwise_singleton _ _, ?_, List.forall_mem_singleton.mpr htype, ?_⟩
    · exact List.forall_mem_singleton.mpr ⟨a, by rw [Attachment.at?], hp⟩
    · exact List.forall_mem_singleton.mpr fun hne => absurd rfl hne
  refine hself.append (h.congr fun x hx => ?_) fun x hx y hy => ?_
  · obtain ⟨i, place, hplace⟩ := hinner x hx
    rw [hplace, Attachment.at?_cons]
  · obtain rfl := List.mem_singleton.mp hx
    obtain ⟨i, place, hplace⟩ := hinner y hy
    rw [hplace]
    exact List.nil_lt_cons i place

end Walked

/-- Contributions from some template on are not in front of that template. -/
theorem le_of_mem_contributedFrom {ps : Parcels} {i : Nat} {as : List Attachment} {x : Copy}
    (hx : x ∈ (contributedFrom ps i as).flatMap Contribution.copies) :
    ∃ j place, x.place = j :: place ∧ i ≤ j := by
  induction as generalizing i with
  | nil => cases hx
  | cons a rest ih =>
    rw [contributedFrom, List.flatMap_append, Contribution.flatMap_copies_below] at hx
    rcases List.mem_append.mp hx with hx | hx
    · obtain ⟨x, -, rfl⟩ := List.mem_map.mp hx
      exact ⟨i, x.place, rfl, Nat.le_refl i⟩
    · obtain ⟨j, place, hplace, hle⟩ := ih hx
      exact ⟨j, place, hplace, Nat.le_of_succ_le hle⟩

mutual

theorem walked_contributed (ps : Parcels) : (a : Attachment) →
    Walked ps a.at? (contributed ps a)
  | ⟨id, type, subs⟩ => by
    rw [contributed]
    cases hp : ps.ofTemplate? id with
    | none => exact .nil ps _
    | some p =>
      dsimp only
      cases htype : p.type.profile? with
      | none => exact .nil ps _
      | some profile =>
        cases profile with
        | policyObject => exact .nil ps _
        | system => exact .system hp htype (walked_contributedFrom ps subs 0 subs rfl)
        | transport | service => exact .vpn hp htype

theorem walked_contributedFrom (ps : Parcels) (forest : List Attachment) (i : Nat) :
    (as : List Attachment) → forest.drop i = as →
      Walked ps (nodeAt? forest) (contributedFrom ps i as)
  | [], _ => .nil ps _
  | a :: rest, h => by
    have ha : forest[i]? = some a := by
      rw [← List.head?_drop, h, List.head?_cons]
    have hrest : forest.drop (i + 1) = rest := by
      rw [← List.tail_drop, h, List.tail_cons]
    rw [contributedFrom]
    -- Places among the sub-templates of one template come before those among the next ones
    refine ((walked_contributed ps a).below ha).append
      (walked_contributedFrom ps forest (i + 1) rest hrest) fun x hx y hy => ?_
    rw [Contribution.flatMap_copies_below] at hx
    obtain ⟨x, -, rfl⟩ := List.mem_map.mp hx
    obtain ⟨j, place, hplace, hlt⟩ := le_of_mem_contributedFrom hy
    rw [hplace]
    exact List.cons_lt_cons_iff.mpr (.inl hlt)

end

/-! ## Plans -/

/-- The profiles of a device template with these contributions, empty ones left out. -/
def contributedPlans (mark : String) (t : DeviceTemplate) (cs : List Contribution) :
    List ProfilePlan :=
  [⟨profileName mark t .system, t.description, .system, parcelsOf cs, []⟩,
    ⟨profileName mark t .transport, t.description, .transport, [], parentsOf .transport cs⟩,
    ⟨profileName mark t .service, t.description, .service, [], parentsOf .service cs⟩].filter
      fun plan => !plan.isEmpty

theorem devicePlans_eq (ps : Parcels) (mark : String) (t : DeviceTemplate) :
    devicePlans ps mark t = contributedPlans mark t (contributedFrom ps 0 t.templates) := by
  have hgains : Placement.Gains .empty (contributedFrom ps 0 t.templates)
      (Placement.attachAll ps .empty t.templates) := Placement.gains_attachAll .empty 0 t.templates
  rw [devicePlans, contributedPlans, Placement.ofTemplate, hgains.system, hgains.transport,
    hgains.service]
  rfl

/-- Where an origin occurs once, its parcel is what comes of converting that object. -/
theorem Sweep.FixedPoint.get?_eq_toOption {objects : List LegacyObject} {s : Sweep}
    (h : FixedPoint objects s) {o : LegacyObject} (ho : o ∈ objects)
    (honce : (objects.map LegacyObject.origin).count o.origin = 1) :
    s.parcels.get? o.origin = (o.outcome s.ctx).toOption := by
  cases hout : o.outcome s.ctx with
  | ok p => exact h.get?_of_outcome ho hout honce
  | error e =>
    refine Option.eq_none_iff_forall_ne_some.mpr fun p hp => ?_
    obtain ⟨o', ho', horigin, hout'⟩ := h.outcome_of_get? hp
    rw [eq_of_count_origin honce ho ho' horigin, hout] at hout'
    cases hout'

/-- Every parcel that is planned is a copy of what an object was converted to. The shared profile
    has one for each policy list whose origin was converted, in order; that is the parcel of the
    list itself where no other object has its origin. The profiles of a device template have
    those of its own templates, each from a place of its own and in the order of a walk, and in
    front of them the converted policies that these refer to. -/
theorem transform_copies (tree : CollectedTree) (notes : List (String × Note)) (mark : String) :
    let s := Sweep.ofTree tree ⟨[], notes⟩
    let r := (transform tree ⟨[], notes⟩ mark).1
    (∀ origin p, s.parcels.get? origin = some p →
      ∃ o ∈ tree.objects, o.origin = origin ∧ o.outcome s.ctx = .ok p) ∧
    (∀ l ∈ tree.policyLists, l.category = .policyList →
      (tree.objects.map LegacyObject.origin).count l.origin = 1 →
        s.parcels.get? (.policyList, l.id) = (l.outcome s.ctx).toOption) ∧
    r.policyObjects =
      (match tree.policyLists.filterMap fun l => s.parcels.get? (.policyList, l.id) with
      | [] => none
      | first :: rest => some ⟨mark ++ "policy_objects", some "Migrated policy lists",
          .policyObject, first :: rest, []⟩) ∧
    ∃ cs : DeviceTemplate → List Contribution,
      (∀ t ∈ tree.deviceTemplates, Walked s.parcels (nodeAt? t.templates) (cs t)) ∧
      r.profiles = (tree.deviceTemplates.flatMap fun t =>
        (contributedPlans mark t (cs t)).map fun plan =>
          { plan with parcels := pulledPolicies s.parcels.routePolicy? plan ++ plan.parcels }) ∧
      ∀ plan, ∀ p ∈ pulledPolicies s.parcels.routePolicy? plan,
        p.type = .routePolicy ∧ ∃ o ∈ tree.objects, o.outcome s.ctx = .ok p := by
  intro s r
  have hfixed := (Sweep.fixedPoint_ofTree tree notes).1
  have hr : r = _ := transform_fst tree ⟨[], notes⟩ mark
  rw [hr]
  refine ⟨fun origin p => hfixed.outcome_of_get?, ?_,
    policyObjectPlan_eq _ (policyObjectHeader mark) tree,
    fun t => contributedFrom s.parcels 0 t.templates, ?_, ?_, ?_⟩
  · intro l hl hcategory honce
    have hmem : l ∈ tree.objects := List.mem_append_left _ (List.mem_append_right _ hl)
    rw [← hcategory]
    exact hfixed.get?_eq_toOption hmem honce
  · exact fun t _ => walked_contributedFrom s.parcels t.templates 0 t.templates rfl
  · refine List.flatMap_congr fun t _ => ?_
    rw [devicePlans_eq]
    rfl
  · intro plan p hp
    obtain ⟨id, -, hpolicy⟩ := List.mem_filterMap.mp hp
    obtain ⟨⟨entry, hentry, rfl⟩, htype, -⟩ := Parcels.of_routePolicy? hpolicy
    obtain ⟨o, ho, -, hout⟩ := hfixed.source entry hentry
    exact ⟨htype, o, ho, hout⟩

/-- Two policy lists of one id, of which the second has no entries. -/
def twiceListedTree : CollectedTree where
  collectedAt := ⟨0, 0⟩
  featureTemplates := []
  deviceTemplates := []
  policyLists := [
    ⟨"l", "apps", none, .policyList, "app",
      .obj [("type", .str "app"), ("entries", .arr [.obj [("app", .str "mail")]])]⟩,
    ⟨"l", "rest", none, .policyList, "app", .obj [("type", .str "app"), ("entries", .arr [])]⟩]
  policyDefinitions := []
  failures := []
  cancelled := false

/-- One pass converts what can be converted. -/
theorem ofTree_twiceListedTree : Sweep.ofTree twiceListedTree ⟨[], []⟩ =
    ((Sweep.start ⟨[], []⟩).pass twiceListedTree.objects).settle := by
  refine Sweep.ofTree_of_waiting_eq_nil (List.eq_nil_of_length_eq_zero ?_)
  decide +kernel

/-- Only the first list is converted. Its parcel is planned for the second one as well. -/
theorem transform_twiceListedTree :
    let s := Sweep.ofTree twiceListedTree ⟨[], []⟩
    let r := (transform twiceListedTree ⟨[], []⟩ "").1
    (twiceListedTree.policyLists.filterMap fun l => (l.outcome s.ctx).toOption).map Parcel.name =
        ["apps"] ∧
      r.policyObjects.map (fun plan => plan.parcels.map Parcel.name) = some ["apps", "apps"] := by
  rw [transform_fst, ofTree_twiceListedTree]
  decide +kernel

end ProfileMigration
