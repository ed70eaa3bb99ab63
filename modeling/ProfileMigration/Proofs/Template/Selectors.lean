/-
  ProfileMigration.Proofs.Template.Selectors

  Values that decide what a parcel looks like, and which no device variable can stand for:

    Concrete                    -- a value that is no device variable
    Selector                    -- such a value: where it is read, and when
    ompSelectors, vpnSelectors, … -- those of each template
    yields_omp_settled, …       -- what has been converted has no variable there
-/
import ProfileMigration.Proofs.Template.Carrying
import ProfileMigration.Template.Conversion

namespace ProfileMigration

namespace Template

variable {row values : FieldMap} {source : String} {ctx : Context}

/-! ## Readers that refuse variables -/

/-- The value at a path is no device variable. -/
def Concrete (row : FieldMap) (source : String) : Prop :=
  ∀ name, row.value? source ≠ some (.reference name)

/-- A device variable says something. -/
theorem configured?_of_reference {name : String} (h : row.value? source = some (.reference name)) :
    configured? row source = some (.reference name) := by
  rw [configured?, h]
  rfl

theorem yields_fixedText?_concrete (row : FieldMap) (source : String) :
    Yields (fun _ => Concrete row source) (fixedText? row source) := by
  intro s? hs name hname
  rw [fixedText?, configured?_of_reference hname] at hs
  cases hs

theorem yields_fixedText_concrete (row : FieldMap) (source reported : String) :
    Yields (fun _ => Concrete row source) (fixedText row source reported) := by
  rw [fixedText]
  refine (yields_fixedText?_concrete row source).bind fun s? hconcrete => ?_
  exact fun _ _ => hconcrete

theorem required_of_reference {name : String} (h : row.value? source = some (.reference name)) :
    required row source = .ok (.reference name) := by
  rw [required, configured?_of_reference h]

theorem yields_entryText_concrete (row : FieldMap) (source : String) :
    Yields (fun _ => Concrete row source) (entryText row source) := by
  intro s hs name hname
  rw [entryText, required_of_reference hname] at hs
  cases hs

theorem yields_prefixEntry_concrete (row : FieldMap) (source : String) (newer : Bool) :
    Yields (fun _ => Concrete row source) (prefixEntry row source newer) := by
  intro made hmade name hname
  rw [prefixEntry, entryNetwork, required_of_reference hname] at hmade
  cases hmade

/-! ## Selectors -/

/-- A value that decides what a parcel looks like. -/
structure Selector where
  /-- The lists that it stands in. -/
  rows : List String
  source : String
  /-- Whether it is read. -/
  due : FieldMap → Bool

/-- A value in no list, that is always read. -/
def selector (source : String) : Selector := ⟨[], source, fun _ => true⟩

/-- The same in the items of a list. -/
def Selector.below (list : String) (s : Selector) : Selector := { s with rows := list :: s.rows }

/-- Wherever it is read, it is no device variable. -/
def Selector.Settled (s : Selector) (values : FieldMap) : Prop :=
  ∀ row ∈ itemsAlong s.rows values, s.due row = true → Concrete row s.source

theorem settled_nil {due : FieldMap → Bool} (h : due values = true → Concrete values source) :
    Selector.Settled ⟨[], source, due⟩ values := by
  intro row hrow
  rw [List.mem_singleton.mp hrow]
  exact h

theorem settled_selector (h : Concrete values source) : (selector source).Settled values :=
  settled_nil fun _ => h

theorem settled_below {list : String} {selectors : List Selector}
    (h : ∀ row ∈ values.items list, ∀ s ∈ selectors, s.Settled row) :
    ∀ s ∈ selectors.map (Selector.below list), s.Settled values := by
  intro s hs row hrow
  obtain ⟨inner, hinner, rfl⟩ := List.mem_map.mp hs
  obtain ⟨item, hitem, hmem⟩ := List.mem_flatMap.mp hrow
  exact h item hitem inner hinner row hmem

/-! ## The system profile and VPNs -/

def ompSelectors : List Selector := [selector "protocol"].map (.below "advertise")

theorem yields_omp_settled (values : FieldMap) :
    Yields (fun _ => ∀ s ∈ ompSelectors, s.Settled values) (omp values) := by
  rw [omp]
  have hprotocol : ∀ entry, Yields (fun _ => ∀ s ∈ [selector "protocol"], s.Settled entry)
      (advertisedProtocol entry) := by
    intro entry
    refine (yields_fixedText_concrete _ _ _).bind fun protocol hconcrete => ?_
    exact fun _ _ => List.forall_mem_singleton.mpr (settled_selector hconcrete)
  refine Yields.bind_any fun graceful => Yields.bind_any fun timer => Yields.bind_any fun paths =>
    Yields.bind_any fun ecmp => Yields.bind_any fun shutdown => Yields.bind_any fun interval => ?_
  refine (Yields.mapM_each fun entry _ => hprotocol entry).bind fun advertised hentries => ?_
  exact .pure (settled_below hentries)

def vpnSelectors : List Selector := [selector "vpn-id"]

theorem yields_vpn_settled (values : FieldMap) :
    Yields (fun _ => ∀ s ∈ vpnSelectors, s.Settled values) (vpn values) := by
  rw [vpn]
  refine (Yields.self _).bind fun id hid => (Yields.self _).bind fun type htype => ?_
  have hconcrete : Concrete values "vpn-id" := by
    intro name hname
    rw [intRequired, required_of_reference hname] at hid
    obtain rfl := Except.ok.inj hid
    cases htype
  exact fun _ _ => List.forall_mem_singleton.mpr (settled_selector hconcrete)

/-! ## Routing protocols -/

/-- The name and the direction of every policy that is bound. -/
def boundPolicySelectors : List Selector :=
  [selector "pol-name", selector "direction"].map (.below "route-policy")

theorem yields_withRoutePolicies_settled (slots : PolicySlots) (values data : FieldMap) :
    Yields (fun _ => ∀ s ∈ boundPolicySelectors, s.Settled values)
      (withRoutePolicies ctx slots values data) := by
  have hpolicy : ∀ policy data, Yields (fun _ => ∀ s ∈ [selector "pol-name", selector "direction"],
      s.Settled policy) (withRoutePolicy ctx slots data policy) := by
    intro policy data
    rw [withRoutePolicy]
    refine (yields_fixedText_concrete _ _ _).bind fun origin horigin =>
      (yields_fixedText?_concrete _ _).bind fun direction hdirection => fun _ _ => ?_
    simp only [List.forall_mem_cons]
    exact ⟨settled_selector horigin, settled_selector hdirection, List.forall_mem_nil _⟩
  refine (Yields.foldlM_each (fun policy _ => hpolicy policy) data).mono fun _ hpolicies => ?_
  exact settled_below hpolicies

def bgpSelectors : List Selector :=
  (boundPolicySelectors.map (.below "address-family")).map (.below "neighbor")

theorem yields_bgp_settled (values : FieldMap) :
    Yields (fun _ => ∀ s ∈ bgpSelectors, s.Settled values) (bgp ctx values) := by
  have hfamily : ∀ family, Yields (fun _ => ∀ s ∈ boundPolicySelectors, s.Settled family)
      (addressFamily ctx family) :=
    fun family => Yields.bind_any fun type => yields_withRoutePolicies_settled _ _ _
  have hneighbor : ∀ values, Yields
      (fun _ => ∀ s ∈ boundPolicySelectors.map (Selector.below "address-family"),
      s.Settled values)
      (neighbor ctx values) := by
    intro values
    rw [neighbor]
    refine Yields.bind_any fun address => Yields.bind_any fun remote =>
      Yields.bind_any fun shutdown => Yields.bind_any fun communities => ?_
    refine (Yields.mapM_each fun family _ => hfamily family).bind fun rows hrows => ?_
    exact .pure (settled_below hrows)
  rw [bgp]
  refine Yields.bind_any fun number => ?_
  refine (Yields.mapM_each fun row _ => hneighbor row).bind fun rows hrows => ?_
  exact .pure (settled_below hrows)

theorem yields_ospf_settled (values : FieldMap) :
    Yields (fun _ => ∀ s ∈ boundPolicySelectors, s.Settled ((values.group? "ospf").getD []))
      (ospf ctx values) := by
  rw [ospf]
  exact Yields.bind_any fun external => Yields.bind_any fun inter => Yields.bind_any fun intra =>
    Yields.bind_any fun areas => yields_withRoutePolicies_settled _ _ _

/-! ## Route policies -/

/-- Whether a match names a policy list. -/
def namesList (entry : FieldMap) : Bool :=
  match fixedText? entry "field" with
  | .ok (some field) => (listSlot? field).isSome
  | _ => false

def matchSelectors : List Selector := [selector "field", ⟨[], "ref", namesList⟩]

theorem yields_withMatch_settled (data entry : FieldMap) :
    Yields (fun _ => ∀ s ∈ matchSelectors, s.Settled entry) (withMatch ctx data entry) := by
  rw [withMatch]
  refine ((yields_fixedText_concrete _ _ _).and (yields_fixedText _ _ _)).bind
    fun field hfield => ?_
  obtain ⟨hconcrete, htext⟩ := hfield
  simp only [matchSelectors, List.forall_mem_cons]
  cases hslot : listSlot? field with
  | some slot =>
    refine (yields_fixedText_concrete _ _ _).bind fun origin horigin => fun _ _ => ?_
    exact ⟨settled_selector hconcrete, settled_nil fun _ => horigin, List.forall_mem_nil _⟩
  | none =>
    have hnot : namesList entry = false := by
      rw [namesList, htext]
      exact congrArg Option.isSome hslot
    refine fun _ _ => ⟨settled_selector hconcrete, settled_nil fun hdue => ?_,
      List.forall_mem_nil _⟩
    cases hnot.symm.trans hdue

def actionSelectors : List Selector :=
  selector "type" :: [selector "field"].map (.below "parameter")

theorem yields_withAction_settled (data action : FieldMap) :
    Yields (fun _ => ∀ s ∈ actionSelectors, s.Settled action) (withAction data action) := by
  have hparameter : ∀ parameter data, Yields (fun _ => ∀ s ∈ [selector "field"],
      s.Settled parameter) (withParameter data parameter) := by
    intro parameter data
    refine (yields_fixedText_concrete _ _ _).bind fun field hconcrete => ?_
    exact fun _ _ => List.forall_mem_singleton.mpr (settled_selector hconcrete)
  rw [withAction]
  refine (yields_fixedText_concrete _ _ _).bind fun type htype => ?_
  by_cases hset : type = "set"
  · rw [if_pos hset]
    refine (Yields.foldlM_each (fun parameter _ => hparameter parameter) data).mono
      fun _ hparameters => ?_
    exact List.forall_mem_cons.mpr ⟨settled_selector htype, settled_below hparameters⟩
  · rw [if_neg hset]
    exact .error _

def sequenceSelectors : List Selector :=
  matchSelectors.map (.below "match/entries") ++ actionSelectors.map (.below "actions")

def routePolicySelectors : List Selector :=
  sequenceSelectors.map (.below "sequences")

theorem yields_routePolicy_settled (values : FieldMap) :
    Yields (fun _ => ∀ s ∈ routePolicySelectors, s.Settled values) (routePolicy ctx values) := by
  have hsequence : ∀ sequence, Yields (fun _ => ∀ s ∈ sequenceSelectors, s.Settled sequence)
      (policySequence ctx sequence) := by
    intro sequence
    rw [policySequence]
    refine Yields.bind_any fun id => ?_
    refine (Yields.foldlM_each (fun entry _ data => yields_withMatch_settled data entry) []).bind
      fun entries hentries => ?_
    refine (Yields.foldlM_each (fun action _ data => yields_withAction_settled data action) []).bind
      fun sets hactions => ?_
    exact .pure (List.forall_mem_append.mpr ⟨settled_below hentries, settled_below hactions⟩)
  rw [routePolicy]
  refine (Yields.mapM_each fun sequence _ => hsequence sequence).bind fun rows hrows => ?_
  exact .pure (settled_below hrows)

/-! ## Policy lists -/

/-- What the entries of a list of a given type are made of. -/
def entrySelectors : ParcelType → List Selector
  | .dataPrefix => [selector "ipPrefix"]
  | .dataIpv6Prefix => [selector "ipv6Prefix"]
  | .asPath => [selector "asPath"]
  | .standardCommunity | .expandedCommunity | .extCommunity => [selector "community"]
  | .color => [selector "color"]
  | .appList =>
    [selector "appFamily", ⟨[], "app", fun entry => (entry.value? "appFamily").isNone⟩]
  | _ => []

def policyListSelectors (values : FieldMap) : List Selector :=
  selector "type" :: match listTypeOf values with
    | .ok type => (entrySelectors type).map (.below "entries")
    | .error _ => []

theorem yields_listTypeOf_concrete (values : FieldMap) :
    Yields (fun _ => Concrete values "type") (listTypeOf values) := by
  intro type htype name hname
  rw [listTypeOf, hname] at htype
  cases htype

theorem yields_checkedText_concrete (entry : FieldMap) (field : String) (valid : String → Bool)
    (complaint : String → String) :
    Yields (fun _ => Concrete entry field) (checkedText entry field valid complaint) := by
  rw [checkedText]
  exact (yields_entryText_concrete entry field).bind fun s hconcrete => fun _ _ => hconcrete

theorem yields_listEntry_settled (type : ParcelType) (entry : FieldMap) :
    Yields (fun _ => ∀ s ∈ entrySelectors type, s.Settled entry) (listEntry type entry) := by
  -- Most types have one selector, and it is the text that the entry is made of
  have hone : ∀ {α : Type} {x : Converted α} {field : String} (f : α → FieldMap),
      Yields (fun _ => Concrete entry field) x →
        Yields (fun _ => ∀ s ∈ [selector field], s.Settled entry) (x.map f) :=
    fun f hx => hx.map fun _ hconcrete =>
      List.forall_mem_singleton.mpr (settled_selector hconcrete)
  cases type with
  | dataPrefix | dataIpv6Prefix =>
    refine (yields_prefixEntry_concrete _ _ _).bind fun parts hconcrete => fun _ _ => ?_
    exact List.forall_mem_singleton.mpr (settled_selector hconcrete)
  | asPath => exact hone _ (yields_entryText_concrete _ _)
  | standardCommunity | extCommunity | color => exact hone _ (yields_checkedText_concrete _ _ _ _)
  | appList =>
    rw [listEntry]
    simp only [entrySelectors, List.forall_mem_cons]
    cases hfamily : entry.value? "appFamily" with
    | some family =>
      rw [Option.isSome_some, if_pos rfl]
      refine (yields_entryText_concrete _ _).map fun s hconcrete => ?_
      refine ⟨settled_selector hconcrete, settled_nil fun hdue => ?_, List.forall_mem_nil _⟩
      rw [hfamily] at hdue
      cases hdue
    | none =>
      rw [Option.isSome_none, if_neg Bool.false_ne_true]
      refine (yields_entryText_concrete _ _).map fun s hconcrete => ?_
      refine ⟨settled_selector fun name hname => ?_, settled_nil fun _ => hconcrete,
        List.forall_mem_nil _⟩
      cases hfamily.symm.trans hname
  | _ => exact .error _

theorem yields_policyList_settled (values : FieldMap) :
    Yields (fun _ => ∀ s ∈ policyListSelectors values, s.Settled values) (policyList values) := by
  rw [policyList]
  refine ((yields_listTypeOf_concrete values).and (Yields.self _)).bind fun type htype => ?_
  obtain ⟨hconcrete, heq⟩ := htype
  have hentries : Yields (fun _ => ∀ entry ∈ values.items "entries", ∀ s ∈ entrySelectors type,
      s.Settled entry) (listData type (values.items "entries")) := by
    rw [listData]
    by_cases hexpanded : type = .expandedCommunity
    · subst hexpanded
      rw [if_pos rfl]
      refine Yields.bind (Yields.mapM_each fun entry _ => yields_entryText_concrete entry _)
        fun _ hpatterns => fun _ _ entry hentry => ?_
      exact List.forall_mem_singleton.mpr (settled_selector (hpatterns entry hentry))
    · rw [if_neg hexpanded]
      exact Yields.bind (Yields.mapM_each fun entry _ => yields_listEntry_settled type entry)
        fun _ hrows => .pure hrows
  have hall : (∀ entry ∈ values.items "entries", ∀ s ∈ entrySelectors type, s.Settled entry) →
      ∀ s ∈ policyListSelectors values, s.Settled values := by
    intro hsettled
    rw [policyListSelectors, heq]
    exact List.forall_mem_cons.mpr ⟨settled_selector hconcrete, settled_below hsettled⟩
  by_cases hempty : (values.items "entries").isEmpty = true
  · rw [if_pos hempty]
    exact .error _
  · rw [if_neg hempty]
    exact hentries.bind fun data hsettled => .pure (hall hsettled)

end Template

end ProfileMigration
