/-
  ProfileMigration.Proofs.Template.Contents

  What converted objects carry over from their definitions:

    sites, slotSites, selectors -- the values that are read, by legacy type
    Carries                     -- a parcel has what is made of them
    yields_content_carries      -- every template makes such parcels
    ObjectByObject              -- objects of nested lists and the items that are made of them
    Site.Each, SlotSite.Each    -- what holds of each value in a definition and what is made of it
    convert_carries             -- converted objects, by the values in their definitions
-/
import ProfileMigration.Proofs.Legacy.Sources
import ProfileMigration.Proofs.Template.RoutingSites
import ProfileMigration.Proofs.Template.Selectors
import ProfileMigration.Proofs.Template.SlotSites

namespace ProfileMigration

namespace Template

/-! ## Tables by legacy type -/

/-- The values that go where nothing else does. -/
def siteTable : List (String × List Site) :=
  [("cisco_system", basicSites), ("cisco_banner", bannerSites), ("cisco_logging", loggingSites),
    ("cisco_ntp", ntpSites), ("cisco_bfd", bfdSites), ("cisco_omp", ompSites),
    ("cisco_vpn", vpnSites), ("cisco_vpn_interface", ethernetSites), ("cisco_bgp", bgpSites),
    ("cisco_ospf", ospfSites), ("vedgeRoute", routePolicySites)]

def sites (kind : String) : List Site := (siteTable.lookup kind).getD []

/-- The values that go into slots. -/
def slotSiteTable : List (String × List SlotSite) :=
  [("cisco_vpn", vpnSlotSites), ("vedgeRoute", sequenceSlotSites)]

def slotSites (kind : String) : List SlotSite := (slotSiteTable.lookup kind).getD []

/-- The values that decide what parcels look like; for a policy list, its type decides what its
    entries are read for. -/
def selectorTable : List (String × List Selector) :=
  [("cisco_omp", ompSelectors), ("cisco_vpn", vpnSelectors), ("cisco_bgp", bgpSelectors),
    ("cisco_ospf", boundPolicySelectors), ("vedgeRoute", routePolicySelectors)]

def selectors (kind : String) (values : FieldMap) : List Selector :=
  if (listType? kind).isSome then policyListSelectors values
  else (selectorTable.lookup kind).getD []

/-- Where the values of a definition are read: one protocol reads below a group. -/
def root (kind : String) (values : FieldMap) : FieldMap :=
  if kind = "cisco_ospf" then (values.group? "ospf").getD [] else values

/-- A parcel has what is made of the values in a field tree, and those that decide what it looks
    like are no device variables. -/
structure Carries (kind : String) (values out : FieldMap) : Prop where
  sites : ∀ s ∈ sites kind, s.Made values out
  slots : ∀ s ∈ slotSites kind, s.Made values out
  settled : ∀ s ∈ selectors kind values, s.Settled values

/-- Most kinds have neither slots nor values that decide. -/
theorem carries_of_sites {kind : String} {values out : FieldMap} (hslots : slotSites kind = [])
    (hselectors : selectors kind values = []) (h : ∀ s ∈ sites kind, s.Made values out) :
    Carries kind values out where
  sites := h
  slots := by
    rw [hslots]
    exact List.forall_mem_nil _
  settled := by
    rw [hselectors]
    exact List.forall_mem_nil _

/-- Every template makes parcels that carry over the values it reads. -/
theorem yields_content_carries (ctx : Context) (values : FieldMap) :
    ∀ t ∈ all, ∀ kind ∈ t.kinds,
      Yields (fun made => Carries kind (root kind values) made.2) (t.content ctx values) := by
  simp only [all, plain, referring, List.forall_mem_cons]
  refine ⟨?basic, ?banner, ?logging, ?ntp, ?bfd, ?omp, ?vpn, ?ethernet, ?bgp, ?ospf, ?policy,
    ?lists, List.forall_mem_nil _⟩
  case basic =>
    exact ⟨(yields_basic_made values).map fun _ hsites => carries_of_sites rfl rfl hsites,
      List.forall_mem_nil _⟩
  case banner =>
    exact ⟨(yields_banner_made values).map fun _ hsites => carries_of_sites rfl rfl hsites,
      List.forall_mem_nil _⟩
  case logging =>
    exact ⟨(yields_logging_made values).map fun _ hsites => carries_of_sites rfl rfl hsites,
      List.forall_mem_nil _⟩
  case ntp =>
    exact ⟨(yields_ntp_made values).map fun _ hsites => carries_of_sites rfl rfl hsites,
      List.forall_mem_nil _⟩
  case bfd =>
    exact ⟨(yields_bfd_made values).map fun _ hsites => carries_of_sites rfl rfl hsites,
      List.forall_mem_nil _⟩
  case omp =>
    have hboth := (yields_omp_made values).and (yields_omp_settled values)
    exact ⟨hboth.map fun out hout => ⟨hout.1, List.forall_mem_nil _, hout.2⟩, List.forall_mem_nil _⟩
  case vpn =>
    have hall := ((yields_vpn_made values).and (yields_vpn_slots values)).and
      (yields_vpn_settled values)
    exact ⟨hall.mono fun made hmade => ⟨hmade.1.1, hmade.1.2, hmade.2⟩, List.forall_mem_nil _⟩
  case ethernet =>
    exact ⟨(yields_ethernet_made values).map fun _ hsites => carries_of_sites rfl rfl hsites,
      List.forall_mem_nil _⟩
  case bgp =>
    have hboth := (@yields_bgp_made ctx values).and (yields_bgp_settled values)
    exact ⟨hboth.map fun out hout => ⟨hout.1, List.forall_mem_nil _, hout.2⟩, List.forall_mem_nil _⟩
  case ospf =>
    have hboth := (@yields_ospf_made ctx values).and (yields_ospf_settled values)
    exact ⟨hboth.map fun out hout => ⟨hout.1, List.forall_mem_nil _, hout.2⟩, List.forall_mem_nil _⟩
  case policy =>
    have hall := ((@yields_routePolicy_made ctx values).and
      (yields_routePolicy_slots values)).and (yields_routePolicy_settled values)
    exact ⟨hall.map fun out hout => ⟨hout.1.1, hout.1.2, hout.2⟩, List.forall_mem_nil _⟩
  case lists =>
    intro kind hkind
    have hlist : ∀ kind ∈ listTypes.map (·.1), (siteTable.lookup kind).isNone ∧
        (slotSiteTable.lookup kind).isNone ∧ (listType? kind).isSome ∧ kind ≠ "cisco_ospf" := by
      decide
    obtain ⟨hsites, hslots, htype, hospf⟩ := hlist kind hkind
    refine (yields_policyList_settled values).mono fun made hsettled => ⟨?_, ?_, ?_⟩
    · rw [sites, Option.isNone_iff_eq_none.mp hsites]
      exact List.forall_mem_nil _
    · rw [slotSites, Option.isNone_iff_eq_none.mp hslots]
      exact List.forall_mem_nil _
    · rw [selectors, if_pos htype, root, if_neg hospf]
      exact hsettled

/-! ## Values in definitions -/

variable {hints : Hints} {members : List (String × Json)} {out : FieldMap}

/-- Something that holds of the objects of a list and what is made of them, of the objects in
    these, and so on for the lists of a path. -/
def ObjectByObject (P : List (String × Json) → FieldMap → Prop) :
    List (String × String) → List (String × Json) → FieldMap → Prop
  | [], members, out => P members out
  | (source, target) :: rest, members, out =>
    List.Forall₂ (ObjectByObject P rest) (Legacy.rowsAt members source) (out.items target)

/-- What holds of the items of a field tree holds of the objects that they come from. -/
theorem RowByRow.objects {P : FieldMap → FieldMap → Prop}
    {Q : List (String × Json) → FieldMap → Prop}
    (hPQ : ∀ members out, P (Legacy.normalizeMembers hints members) out → Q members out)
    {rows : List (String × String)}
    (h : RowByRow P rows (Legacy.normalizeMembers hints members) out) :
    ObjectByObject Q rows members out := by
  induction rows generalizing members out with
  | nil => exact hPQ members out h
  | cons lists rest ih =>
    rw [RowByRow, Legacy.items_normalizeMembers, List.forall₂_map_left_iff] at h
    exact h.imp fun _ _ hrow => ih hrow

theorem itemsAlong_normalizeMembers (hints : Hints) (paths : List String)
    (members : List (String × Json)) : itemsAlong paths (Legacy.normalizeMembers hints members) =
      (Legacy.rowsAlong paths members).map (Legacy.normalizeMembers hints) := by
  induction paths generalizing members with
  | nil => rfl
  | cons path rest ih =>
    rw [itemsAlong, Legacy.rowsAlong, Legacy.items_normalizeMembers, List.flatMap_map,
      List.map_flatMap]
    exact congrArg (List.flatMap · _) (funext ih)

/-- Something that holds of the objects in which the value of a site stands, and of what has been
    made of it. -/
def Site.Each (s : Site) (hints : Hints)
    (P : List (String × Json) → (TypedValue → Prop) → Prop) (members : List (String × Json))
    (out : FieldMap) : Prop :=
  ObjectByObject (fun row made => s.due (Legacy.normalizeMembers hints row) = true →
    P row fun w => made.value? s.target = some w) s.rows members out

/-- The same for entries with slots, of which the last ones are left. -/
def SlotSite.Each (s : SlotSite) (hints : Hints)
    (P : List (String × Json) → (TypedValue → Prop) → Prop) (members : List (String × Json))
    (out : FieldMap) : Prop :=
  ObjectByObject (fun row made => ∀ before entry after slot,
    Legacy.rowsAlong s.entries row = before ++ entry :: after →
    s.slotOf (Legacy.normalizeMembers hints entry) = some slot →
    P entry fun w =>
      (∀ later ∈ after, s.slotOf (Legacy.normalizeMembers hints later) ≠ some slot) →
        s.held made slot (.value w)) s.rows members out

/-- What is configured in an object is carried over. -/
def CarriedFrom (hints : Hints) (how : Carriage) (source : String) (row : List (String × Json))
    (made : TypedValue → Prop) : Prop :=
  ∀ v, configured? (Legacy.normalizeMembers hints row) source = some v →
    ∃ w, how.carry source v = .ok w ∧ made w

theorem Site.Made.each {s : Site} (h : s.Made (Legacy.normalizeMembers hints members) out)
    {P : List (String × Json) → (TypedValue → Prop) → Prop}
    (hP : ∀ row made, CarriedFrom hints s.how s.source row made → P row made) :
    s.Each hints P members out :=
  RowByRow.objects (fun row _ hmade hdue => hP row _ (hmade hdue)) h

theorem SlotSite.Made.each {s : SlotSite}
    (h : s.Made (Legacy.normalizeMembers hints members) out)
    {P : List (String × Json) → (TypedValue → Prop) → Prop}
    (hP : ∀ row made, CarriedFrom hints s.how s.source row made → P row made) :
    s.Each hints P members out := by
  refine RowByRow.objects (fun row made hmade => ?_) h
  intro before entry after slot hsplit hslot
  refine hP entry _ fun v hv => ?_
  have hentries : itemsAlong s.entries (Legacy.normalizeMembers hints row) =
      before.map (Legacy.normalizeMembers hints) ++ Legacy.normalizeMembers hints entry ::
        after.map (Legacy.normalizeMembers hints) := by
    rw [itemsAlong_normalizeMembers, hsplit, List.map_append, List.map_cons]
  obtain ⟨w, hw, hheld⟩ := hmade _ _ _ slot v hentries hslot hv
  exact ⟨w, hw, fun hlater => hheld (List.forall_mem_map.mpr hlater)⟩

end Template

/-- The members of a definition below which its values are read. -/
def LegacyObject.root (o : LegacyObject) : List (String × Json) :=
  let members := o.definition.members?.getD []
  if o.kind = "cisco_ospf" then
    ((Legacy.find? members "ospf").bind fun found => Legacy.object? found.2).getD []
  else members

theorem Legacy.normalize_eq (hints : Hints) (definition : Json) :
    normalize hints definition = normalizeMembers hints (definition.members?.getD []) := by
  cases definition with
  | obj members => rfl
  | null | bool _ | num _ | str _ | arr _ => rfl

theorem Template.root_normalize (hints : Hints) (o : LegacyObject) :
    Template.root o.kind (Legacy.normalize hints o.definition) =
      Legacy.normalizeMembers hints o.root := by
  rw [Legacy.normalize_eq, Template.root, LegacyObject.root]
  split
  · rw [FieldMap.group?, Legacy.field?_normalizeMembers]
    cases Legacy.find? (o.definition.members?.getD []) "ospf" with
    | none => rfl
    | some found =>
      rw [Option.bind_some, Option.bind_some, Legacy.group?_normalizeField]
      cases Legacy.object? found.2 with
      | none => rfl
      | some inner => rfl
  · rfl

/-- A converted object carries over the values that its template reads. -/
theorem convert_carries {o : LegacyObject} {id : Uuid} {c : Context} {p : Parcel} {t : Template}
    (ht : template? o.kind = some t) (h : convert o id c = .ok p) :
    Template.Carries o.kind (Legacy.normalizeMembers t.hints o.root) p.data := by
  have hkind : o.kind ∈ t.kinds := by
    have hfound := List.find?_some ht
    exact List.contains_iff_mem.mp hfound
  have hcarries := Template.yields_content_carries c (Legacy.normalize t.hints o.definition) t
    (template?_mem ht) o.kind hkind _ (content_of_convert ht h)
  rwa [Template.root_normalize] at hcarries

end ProfileMigration
