/-
  ProfileMigration.Proofs.Template.RoutingSites

  The values that templates of routing protocols and route policies carry over:

    bgpSites, ospfSites, …              -- where they are read, how, and where they go
    yields_withRoutePolicies_elsewhere  -- bound policies take nothing but their slots
    yields_bgp_made, …                  -- parcels have what is made of the values
-/
import ProfileMigration.Proofs.Template.RoutePolicies
import ProfileMigration.Proofs.Template.Sites

namespace ProfileMigration

namespace Template

variable {ctx : Context}

/-! ## Bound policies -/

theorem PolicySlots.Takes.eq_or {slots : PolicySlots} {direction : Option String} {slot : String}
    (h : slots.Takes direction slot) : slot = slots.inbound ∨ slots.outbound = some slot := by
  cases h with
  | unsaid => exact .inl rfl
  | inbound => exact .inl rfl
  | outbound hslot => exact .inr hslot

/-- Policies go into slots, and nothing else changes. -/
theorem yields_withRoutePolicies_elsewhere {slots : PolicySlots} (hsingle : slots.Single)
    (values data : FieldMap) :
    Yields (fun made => ∀ key, (∀ direction, ¬ slots.Takes direction key) →
      Keyed.get? key made = Keyed.get? key data) (withRoutePolicies ctx slots values data) := by
  refine (yields_foldlM_binds hsingle _ data).mono fun made hmade key hkey => ?_
  obtain ⟨bound, hbinds⟩ := hmade
  have hslots : ∀ b ∈ bound, ∃ direction, slots.Takes direction b.1 := by
    refine forall_mem_of_forall₂ hbinds.named ?_
    rintro entry b ⟨_, direction, -, -, htakes, -⟩
    exact ⟨direction, htakes⟩
  refine hbinds.others key fun hmem => ?_
  obtain ⟨b, hb, rfl⟩ := List.mem_map.mp hmem
  obtain ⟨direction, htakes⟩ := hslots b hb
  exact hkey direction htakes

/-- Sites that do not enter the parcel at a slot stay as they are. -/
theorem made_withRoutePolicies {slots : PolicySlots} {sites : List Site}
    {values group data : FieldMap} (hsingle : slots.Single)
    (hentrances : ∀ s ∈ sites, Path.Single s.entrance ∧
      ∀ direction, ¬ slots.Takes direction s.entrance)
    (h : ∀ s ∈ sites, s.Made values data) :
    Yields (fun made => ∀ s ∈ sites, s.Made values made)
      (withRoutePolicies ctx slots group data) := by
  refine (yields_withRoutePolicies_elsewhere hsingle group data).mono fun made hmade s hs => ?_
  obtain ⟨hentrance, hslots⟩ := hentrances s hs
  refine (h s hs).congr ?_
  rw [FieldMap.field?_of_single hentrance, FieldMap.field?_of_single hentrance]
  exact hmade s.entrance hslots

/-! ## Border gateway protocol -/

def addressFamilySites : List Site := [site "family-type" .plain "familyType"]

theorem yields_addressFamily_made (family : FieldMap) :
    Yields (fun out => ∀ s ∈ addressFamilySites, s.Made family out) (addressFamily ctx family) := by
  rw [addressFamily]
  refine (yields_required_carried _ _).bind fun type htype => ?_
  refine made_withRoutePolicies single_familySlots ?slots ?made
  case slots =>
    refine List.forall_mem_singleton.mpr ⟨by decide, fun direction htakes => ?_⟩
    have hnot : ¬ ("familyType" = familySlots.inbound ∨
        familySlots.outbound = some "familyType") := by
      decide
    exact hnot htakes.eq_or
  case made =>
    have hapart : AllApart ["familyType"] := by decide
    refine made_assemble hapart ?_
    simp only [addressFamilySites, List.forall_mem_cons]
    refine ⟨entered_site htype ?_, List.forall_mem_nil _⟩
    simp

def neighborSites : List Site :=
  [site "address" .text "address", site "remote-as" .integer "remoteAs",
    site "description" .text "description", site "shutdown" .truth "shutdown",
    site "send-community" .truth "sendCommunity"] ++
  addressFamilySites.map (.below ("address-family", "addressFamily"))

theorem yields_neighbor_made (values : FieldMap) :
    Yields (fun out => ∀ s ∈ neighborSites, s.Made values out) (neighbor ctx values) := by
  rw [neighbor]
  refine (yields_textRequired_carried _ _).bind fun address haddress =>
    (yields_intRequired_carried _ _).bind fun remote hremote =>
    (yields_boolOr_carried _ _ _).bind fun shutdown hshutdown =>
    (yields_boolOr_carried _ _ _).bind fun communities hcommunities =>
    (Yields.mapM_forall₂ fun family _ => yields_addressFamily_made family).bind
      fun families hfamilies => .pure ?_
  have hpaths : AllApart ["address", "remoteAs", "description", "shutdown", "sendCommunity"] ∧
      ∀ path ∈ ["address", "remoteAs", "description", "shutdown", "sendCommunity"],
        (Path.segments path).head? ≠ some "addressFamily" := by
    decide
  refine made_withItems_assemble hpaths.1 (by decide) hpaths.2 (by decide) ?_
    hfamilies
  simp only [List.forall_mem_cons]
  refine ⟨entered_site haddress ?_, entered_site hremote ?_, entered_site (carried_textOpt _ _) ?_,
    entered_site hshutdown ?_, entered_site hcommunities ?_, List.forall_mem_nil _⟩
  all_goals simp

def bgpSites : List Site :=
  [site "as-num" .integer "asNum", site "router-id" .text "routerId"] ++
  neighborSites.map (.below ("neighbor", "neighbor"))

theorem yields_bgp_made (values : FieldMap) :
    Yields (fun out => ∀ s ∈ bgpSites, s.Made values out) (bgp ctx values) := by
  rw [bgp]
  refine (yields_intRequired_carried _ _).bind fun number hnumber =>
    (Yields.mapM_forall₂ fun neighbor _ => yields_neighbor_made neighbor).bind
      fun neighbors hneighbors => .pure ?_
  have hpaths : AllApart ["asNum", "routerId"] ∧ ∀ path ∈ ["asNum", "routerId"],
      (Path.segments path).head? ≠ some "neighbor" := by
    decide
  refine made_withItems_assemble hpaths.1 (by decide) hpaths.2 (by decide) ?_
    hneighbors
  simp only [List.forall_mem_cons]
  refine ⟨entered_site hnumber ?_, entered_site (carried_textOpt _ _) ?_, List.forall_mem_nil _⟩
  all_goals simp

/-! ## Open shortest path first -/

def areaInterfaceSites : List Site :=
  [site "name" .text "ifName", site "hello-interval" .integer "helloInterval",
    site "cost" .integer "cost"]

theorem yields_areaInterface_made (values : FieldMap) :
    Yields (fun out => ∀ s ∈ areaInterfaceSites, s.Made values out) (areaInterface values) := by
  rw [areaInterface]
  refine (yields_textRequired_carried _ _).bind fun name hname =>
    (yields_intOr_carried _ _ _).bind fun hello hhello =>
    (yields_intOpt_carried _ _).bind fun cost hcost => .pure ?_
  have hapart : AllApart ["ifName", "helloInterval", "cost"] := by decide
  refine made_assemble hapart ?_
  simp only [areaInterfaceSites, List.forall_mem_cons]
  refine ⟨entered_site hname ?_, entered_site hhello ?_, entered_site hcost ?_,
    List.forall_mem_nil _⟩
  all_goals simp

def areaSites : List Site :=
  [site "a-num" .integer "aNum"] ++ areaInterfaceSites.map (.below ("interface", "interface"))

theorem yields_area_made (values : FieldMap) :
    Yields (fun out => ∀ s ∈ areaSites, s.Made values out) (area values) := by
  rw [area]
  refine (yields_intRequired_carried _ _).bind fun number hnumber =>
    (Yields.mapM_forall₂ fun interface _ => yields_areaInterface_made interface).bind
      fun interfaces hinterfaces => .pure ?_
  have hapart : AllApart ["aNum"] := by decide
  have hname : Path.Single "interface" := by decide
  refine made_listed (made_insert hname (by decide) _ (made_assemble hapart ?_))
    (FieldMap.items_insert_self hname interfaces) hinterfaces
  simp only [List.forall_mem_cons]
  refine ⟨entered_site hnumber ?_, List.forall_mem_nil _⟩
  simp

/-- Below the group that the definition keeps the protocol in. -/
def ospfSites : List Site :=
  [site "router-id" .text "routerId", site "distance/external" .integer "externalDistance",
    site "distance/inter-area" .integer "interAreaDistance",
    site "distance/intra-area" .integer "intraAreaDistance"] ++
  areaSites.map (.below ("area", "area"))

theorem yields_ospf_made (values : FieldMap) :
    Yields (fun out => ∀ s ∈ ospfSites, s.Made ((values.group? "ospf").getD []) out)
      (ospf ctx values) := by
  rw [ospf]
  refine (yields_intOr_carried _ _ _).bind fun external hexternal =>
    (yields_intOr_carried _ _ _).bind fun inter hinter =>
    (yields_intOr_carried _ _ _).bind fun intra hintra =>
    (Yields.mapM_forall₂ fun area _ => yields_area_made area).bind fun areas hareas => ?_
  refine made_withRoutePolicies single_ospfSlots ?slots ?made
  case slots =>
    have hentrances : ∀ s ∈ ospfSites, Path.Single s.entrance ∧
        ¬ (s.entrance = ospfSlots.inbound ∨ ospfSlots.outbound = some s.entrance) := by
      decide
    exact fun s hs => ⟨(hentrances s hs).1, fun _ htakes => (hentrances s hs).2 htakes.eq_or⟩
  case made =>
    have hpaths : AllApart ["routerId", "externalDistance", "interAreaDistance",
        "intraAreaDistance"] ∧ ∀ path ∈ ["routerId", "externalDistance", "interAreaDistance",
        "intraAreaDistance"], (Path.segments path).head? ≠ some "area" := by
      decide
    refine made_withItems_assemble hpaths.1 (by decide) hpaths.2 (by decide) ?_
      hareas
    simp only [List.forall_mem_cons]
    refine ⟨entered_site (carried_textOpt _ _) ?_, entered_site hexternal ?_,
      entered_site hinter ?_, entered_site hintra ?_, List.forall_mem_nil _⟩
    all_goals simp

/-! ## Route policies -/

def sequenceSites : List Site :=
  [site "sequenceId" .integer "sequenceId", site "sequenceName" .text "sequenceName",
    site "baseAction" .plain "baseAction"]

theorem yields_policySequence_made (values : FieldMap) :
    Yields (fun out => ∀ s ∈ sequenceSites, s.Made values out) (policySequence ctx values) := by
  rw [policySequence]
  refine (yields_intRequired_carried _ _).bind fun id hid =>
    Yields.bind_any fun entries => Yields.bind_any fun sets => .pure ?_
  have hapart : AllApart ["sequenceId", "sequenceName", "baseAction", "protocol"] := by
    decide
  refine made_withItems (by decide) (by decide) _
    (made_withItems (by decide) (by decide) _ (made_assemble hapart ?_))
  simp only [sequenceSites, List.forall_mem_cons]
  refine ⟨entered_site hid ?_, entered_site (carried_textOpt _ _) ?_,
    entered_site (carried_textOr _ _ "reject") ?_, List.forall_mem_nil _⟩
  all_goals simp

def routePolicySites : List Site :=
  [site "defaultAction/type" .plain "defaultAction"] ++
  sequenceSites.map (.below ("sequences", "sequences"))

theorem yields_routePolicy_made (values : FieldMap) :
    Yields (fun out => ∀ s ∈ routePolicySites, s.Made values out) (routePolicy ctx values) := by
  rw [routePolicy]
  refine (Yields.mapM_forall₂ fun sequence _ => yields_policySequence_made sequence).bind
    fun sequences hsequences => .pure ?_
  have hapart : AllApart ["defaultAction"] := by decide
  have hname : Path.Single "sequences" := by decide
  refine made_listed (made_insert hname (by decide) _ (made_assemble hapart ?_))
    (FieldMap.items_insert_self hname sequences) hsequences
  simp only [List.forall_mem_cons]
  refine ⟨entered_site (carried_textOr _ _ "reject") ?_, List.forall_mem_nil _⟩
  simp

end Template

end ProfileMigration
