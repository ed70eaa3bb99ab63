/-
  ProfileMigration.Proofs.Template.Overwriting

  What is left of lists whose entries share the slots of one group:

    MatchSlot           -- what a match of a route policy is written as, and in which slot
    ParameterSlot       -- the same for a parameter that a route policy sets
    ServerSlot          -- the same for a name server
    SequenceKept        -- what a sequence keeps of its matches and parameters
    convert_keeps_last  -- converted policies and VPNs keep the last entry for each slot

  Nothing asks whether a slot is taken. Of several entries for one slot only the last is left, so
  that a list is kept in full exactly if no two of its entries disagree about a slot.
-/
import ProfileMigration.Proofs.Template.Assembling
import ProfileMigration.Proofs.Template.Slots
import ProfileMigration.Proofs.Template.Steadiness

namespace ProfileMigration

namespace Template

variable {ctx : Context} {values : FieldMap}

/-- What is read successfully is read one way. -/
theorem ok_unique {ε α : Type} {x : Except ε α} {a b : α} (h : x = .ok a) (h' : x = .ok b) :
    a = b :=
  Except.ok.inj (h.symm.trans h')

theorem fixedText_unique {entry : FieldMap} {path s s' : String}
    (h : fixedText? entry path = .ok (some s)) (h' : fixedText? entry path = .ok (some s')) :
    s = s' :=
  Option.some.inj (ok_unique h h')

/-! ## Matches -/

/-- The numbers that a policy can match. -/
def matchedNumbers : List String := ["localPreference", "metric", "ompTag"]

/-- A match is written as the list it refers to, or as a number. -/
inductive MatchSlot (ctx : Context) (entry : FieldMap) : String → Field → Prop where
  | list {field slot origin : String} {id : Uuid}
      (hfield : fixedText? entry "field" = .ok (some field)) (hslot : listSlot? field = some slot)
      (horigin : fixedText? entry "ref" = .ok (some origin))
      (hid : ctx.resolve .policyList origin = some id) : MatchSlot ctx entry slot (.objectRef id)
  | number {field : String} {v : TypedValue}
      (hfield : fixedText? entry "field" = .ok (some field)) (hnumber : field ∈ matchedNumbers)
      (hv : intRequired entry "value" = .ok v) : MatchSlot ctx entry field (.value v)

/-- No number is called like a kind of list. -/
theorem listSlot?_of_mem_matchedNumbers :
    ∀ field ∈ matchedNumbers, listSlot? field = none := by
  decide

theorem single_of_mem_matchedNumbers : ∀ field ∈ matchedNumbers, Path.Single field := by
  decide

/-- The slots of lists. -/
def listSlots : List String :=
  ["ipv4Address", "ipv6Address", "asPathList", "communityList", "extCommunityList"]

theorem mem_listSlots {field slot : String} (h : listSlot? field = some slot) :
    slot ∈ listSlots := by
  unfold listSlot? at h
  grind [listSlots]

theorem single_of_listSlot? {field slot : String} (h : listSlot? field = some slot) :
    Path.Single slot := by
  have hslots : ∀ slot ∈ listSlots, Path.Single slot := by decide
  exact hslots slot (mem_listSlots h)

theorem determined_matchSlot : Determined (MatchSlot ctx) := by
  intro entry slot slot' f f' h h'
  cases h with
  | @list field _ origin _ hfield hslot horigin hid =>
    cases h' with
    | @list field' _ origin' _ hfield' hslot' horigin' hid' =>
      obtain rfl := fixedText_unique hfield hfield'
      obtain rfl := fixedText_unique horigin horigin'
      exact ⟨Option.some.inj (hslot.symm.trans hslot'),
        congrArg Field.objectRef (Option.some.inj (hid.symm.trans hid'))⟩
    | number hfield' hnumber _ =>
      -- The field says which of the two an entry is
      rw [fixedText_unique hfield hfield', listSlot?_of_mem_matchedNumbers _ hnumber] at hslot
      cases hslot
  | number hfield hnumber hv =>
    cases h' with
    | list hfield' hslot' _ _ =>
      rw [fixedText_unique hfield' hfield, listSlot?_of_mem_matchedNumbers _ hnumber] at hslot'
      cases hslot'
    | number hfield' _ hv' =>
      exact ⟨fixedText_unique hfield hfield', congrArg Field.value (ok_unique hv hv')⟩

theorem yields_withMatch_writes (data entry : FieldMap) :
    Yields (fun made => Writes (MatchSlot ctx) data [entry] made) (withMatch ctx data entry) := by
  rw [withMatch]
  refine (yields_fixedText _ _ _).bind fun field hfield => ?_
  cases hslot : listSlot? field with
  | some slot =>
    refine (yields_fixedText _ _ _).bind fun origin horigin => ?_
    rw [reference]
    cases hid : ctx.resolve .policyList origin with
    | none => exact .error _
    | some id =>
      refine .pure ?_
      rw [FieldMap.set_of_single (single_of_listSlot? hslot)]
      exact .single (.list hfield hslot horigin hid)
  | none =>
    dsimp only
    split
    · rename_i hnumber
      refine (Yields.self _).bind fun v hv => .pure ?_
      rw [put, FieldMap.set_of_single (single_of_mem_matchedNumbers field hnumber)]
      exact .single (.number hfield hnumber hv)
    · exact .error _

/-! ## Parameters -/

/-- The numbers that a policy can set. -/
def settableNumbers : List String := ["localPreference", "metric", "ompTag", "weight"]

/-- A parameter is written as a number, or as the text of communities. -/
inductive ParameterSlot (parameter : FieldMap) : String → Field → Prop where
  | number {field : String} {v : TypedValue}
      (hfield : fixedText? parameter "field" = .ok (some field))
      (hnumber : field ∈ settableNumbers) (hv : intRequired parameter "value" = .ok v) :
      ParameterSlot parameter field (.value v)
  | community {v : TypedValue}
      (hfield : fixedText? parameter "field" = .ok (some "community"))
      (hv : textRequired parameter "value" = .ok v) :
      ParameterSlot parameter "community" (.value v)

theorem single_of_mem_settableNumbers : ∀ field ∈ settableNumbers, Path.Single field := by
  decide

theorem determined_parameterSlot : Determined ParameterSlot := by
  have hcommunity : "community" ∉ settableNumbers := by decide
  intro parameter slot slot' f f' h h'
  cases h with
  | number hfield hnumber hv =>
    cases h' with
    | number hfield' _ hv' =>
      exact ⟨fixedText_unique hfield hfield', congrArg Field.value (ok_unique hv hv')⟩
    | community hfield' _ =>
      rw [fixedText_unique hfield hfield'] at hnumber
      exact absurd hnumber hcommunity
  | community hfield hv =>
    cases h' with
    | number hfield' hnumber _ =>
      rw [fixedText_unique hfield' hfield] at hnumber
      exact absurd hnumber hcommunity
    | community _ hv' =>
      exact ⟨rfl, congrArg Field.value (ok_unique hv hv')⟩

theorem yields_withParameter_writes (data parameter : FieldMap) :
    Yields (fun made => Writes ParameterSlot data [parameter] made)
      (withParameter data parameter) := by
  rw [withParameter]
  refine (yields_fixedText _ _ _).bind fun field hfield => ?_
  split
  · rename_i hnumber
    refine (Yields.self _).bind fun v hv => .pure ?_
    rw [put, FieldMap.set_of_single (single_of_mem_settableNumbers field hnumber)]
    exact .single (.number hfield hnumber hv)
  · split
    · rename_i hcommunity
      refine (Yields.self _).bind fun v hv => .pure ?_
      rw [put, FieldMap.set_of_single (by decide)]
      exact .single (.community (hcommunity ▸ hfield) hv)
    · exact .error _

/-- The parameters of several actions are written one after the other. -/
theorem yields_withAction_writes (data action : FieldMap) :
    Yields (fun made => Writes ParameterSlot data (action.items "parameter") made)
      (withAction data action) := by
  rw [withAction]
  refine Yields.bind_any fun type => ?_
  by_cases hset : type = "set"
  · rw [if_pos hset]
    have h := yields_foldlM_writes (fun data => data) yields_withParameter_writes
      (action.items "parameter") data
    rwa [List.flatMap_singleton'] at h
  · rw [if_neg hset]
    exact .error _

/-! ## Sequences of a policy -/

/-- A sequence keeps its matches, and the parameters of all its actions, as far as they are the
    last ones for their slots. -/
def SequenceKept (ctx : Context) (sequence row : FieldMap) : Prop :=
  KeepsLast (MatchSlot ctx) (sequence.items "match/entries")
    (fun slot f => ∃ item ∈ row.items "matchEntries", Keyed.get? slot item = some f) ∧
  KeepsLast ParameterSlot ((sequence.items "actions").flatMap (·.items "parameter"))
    (fun slot f => ∃ item ∈ row.items "actions", Keyed.get? slot item = some f)

/-- What one item holds can be read from it; a missing item holds nothing. -/
theorem exists_mem_items_withSingle {data row : FieldMap} {name : String}
    (hname : Path.Single name) (hfree : Keyed.get? name data = none) (slot : String) (f : Field) :
    Keyed.get? slot row = some f ↔
      ∃ item ∈ (withSingle data name row).items name, Keyed.get? slot item = some f := by
  rw [withSingle, items_withItems hname hfree]
  cases row with
  | nil => simp [Keyed.get?]
  | cons entry rest => simp

theorem yields_policySequence_kept (sequence : FieldMap) :
    Yields (SequenceKept ctx sequence) (policySequence ctx sequence) := by
  rw [policySequence]
  refine Yields.bind_any fun id => ?_
  have hmatches := yields_foldlM_writes (fun data => data)
    (@yields_withMatch_writes ctx) (sequence.items "match/entries") []
  rw [List.flatMap_singleton'] at hmatches
  refine hmatches.bind fun entries hentries => ?_
  refine (yields_foldlM_writes (fun data => data) yields_withAction_writes
    (sequence.items "actions") []).bind fun sets hsets => .pure ?_
  have hfree : ∀ name ∈ ["matchEntries", "actions"], Keyed.get? name
      (assemble [("sequenceId", some id), ("sequenceName", textOpt sequence "sequenceName"),
        ("baseAction", textOr sequence "baseAction" "reject"),
        ("protocol", some (.text "IPV4"))]) = none := by
    intro name hname
    refine get?_assemble_of_head_ne ?_
    simp only [List.map_cons, List.map_nil]
    revert name
    decide
  -- Both groups start out empty, so they hold nothing but what has been written
  refine ⟨(hentries.keepsLast determined_matchSlot).congr fun slot f => ?entries,
    (hsets.keepsLast determined_parameterSlot).congr fun slot f => ?parameters⟩
  case entries =>
    have hname : Path.Single "matchEntries" := by decide
    -- The actions are added last, under another name
    rw [FieldMap.items, withSingle, field?_withItems_of_ne hname (by decide)]
    exact exists_mem_items_withSingle hname (hfree _ (by decide)) slot f
  case parameters =>
    refine exists_mem_items_withSingle (by decide) ?_ slot f
    rw [withSingle, get?_withItems_of_ne (by decide)]
    exact hfree _ (by decide)

theorem yields_routePolicy_kept :
    Yields (fun made => List.Forall₂ (SequenceKept ctx) (values.items "sequences")
      (made.items "sequences")) (routePolicy ctx values) := by
  rw [routePolicy]
  refine (Yields.mapM_forall₂ fun sequence _ => yields_policySequence_kept sequence).bind
    fun rows hrows => .pure ?_
  rwa [FieldMap.items_insert_self (by decide)]

/-! ## Name servers -/

/-- The role of a name server; any but one counts as the primary one. -/
def serverSlot (dns : FieldMap) : String :=
  let role := ((configured? dns "role").bind TypedValue.literal?).bind Literal.str?
  if role = some "secondary" then "secondaryDnsAddressIpv4" else "primaryDnsAddressIpv4"

/-- A name server is written as the text of its address. -/
inductive ServerSlot (dns : FieldMap) : String → Field → Prop where
  | server {v : TypedValue} (hv : required dns "dns-addr" = .ok v) :
      ServerSlot dns (serverSlot dns) (.value (toText v))

theorem determined_serverSlot : Determined ServerSlot := by
  rintro dns _ _ _ _ ⟨hv⟩ ⟨hv'⟩
  exact ⟨rfl, congrArg (fun v => Field.value (toText v)) (ok_unique hv hv')⟩

/-- The group of name servers. -/
def servers (data : FieldMap) : FieldMap := (data.group? "dnsIpv4").getD []

theorem yields_withNameServer_writes (data dns : FieldMap) :
    Yields (fun made => Writes ServerSlot (servers data) [dns] (servers made))
      (withNameServer data dns) := by
  rw [withNameServer]
  refine (Yields.self _).bind fun v hv => .pure ?_
  have hplace : Path.segments (if ((configured? dns "role").bind TypedValue.literal?).bind
      Literal.str? = some "secondary" then "dnsIpv4/secondaryDnsAddressIpv4"
      else "dnsIpv4/primaryDnsAddressIpv4") = ["dnsIpv4", serverSlot dns] := by
    rw [serverSlot]
    split
    · decide
    · decide
  rw [put, servers, servers, FieldMap.group?_set hplace (by decide)]
  exact .single (.server hv)

theorem yields_vpn_kept :
    Yields (fun made => KeepsLast ServerSlot (values.items "dns") fun slot f =>
      Keyed.get? slot (servers made.2) = some f) (vpn values) := by
  rw [vpn]
  refine Yields.bind_any fun id => Yields.bind_any fun type => ?_
  have hservers := yields_foldlM_writes servers yields_withNameServer_writes (values.items "dns")
    (assemble [("vpnId", some id), ("name", textOpt values "name")])
  rw [List.flatMap_singleton'] at hservers
  refine hservers.bind fun data hdata => Yields.bind_any fun routes => .pure ?_
  have hgroup : Path.Single "dnsIpv4" := by decide
  have hempty : servers (assemble [("vpnId", some id), ("name", textOpt values "name")]) = [] := by
    rw [servers, FieldMap.group?, FieldMap.field?_of_single hgroup, get?_assemble_of_head_ne ?_]
    · rfl
    · simp only [List.map_cons, List.map_nil]
      decide
  rw [hempty] at hdata
  refine (hdata.keepsLast determined_serverSlot).congr fun slot f => ?_
  -- The routes that are added afterwards are not below the same name
  rw [servers, servers, FieldMap.group?, FieldMap.group?,
    field?_withItems_of_ne hgroup (by decide)]

end Template

/-! ## Converted objects -/

/-- Of the matches of a sequence of a converted policy, of the parameters that its actions set,
    and of the name servers of a converted VPN, the parcel holds the last one for each slot. It
    holds all of them exactly if no two are for one slot and written differently. -/
theorem convert_keeps_last {o : LegacyObject} {id : Uuid} {c : Context} {p : Parcel}
    (h : convert o id c = .ok p) :
    (o.kind = "vedgeRoute" →
      let values := Legacy.normalize Template.routePolicyHints o.definition
      List.Forall₂ (Template.SequenceKept c) (values.items "sequences")
        (p.data.items "sequences")) ∧
    (o.kind = "cisco_vpn" →
      let values := Legacy.normalize Template.vpnHints o.definition
      Template.KeepsLast Template.ServerSlot (values.items "dns") fun slot f =>
        Keyed.get? slot (Template.servers p.data) = some f) := by
  constructor
  · intro hkind
    have htemplate : template? o.kind = some (Template.referring "vedgeRoute"
        Template.routePolicyHints .routePolicy Template.routePolicy) := by
      rw [hkind]
      rfl
    exact Template.yields_routePolicy_kept _ (data_of_convert htemplate h)
  · intro hkind
    have htemplate : template? o.kind = some ⟨["cisco_vpn"], Template.vpnHints,
        fun _ values => Template.vpn values⟩ := by
      rw [hkind]
      rfl
    exact Template.yields_vpn_kept _ (content_of_convert htemplate h)

/-- A policy with one sequence, which matches the addresses of two lists. -/
def widenedPolicy : LegacyObject :=
  ⟨"p", "policy", none, .policyDefinition, "vedgeRoute", .obj [("sequences", .arr [.obj [
    ("match", .obj [("entries", .arr [
      .obj [("field", .str "address"), ("ref", .str "a")],
      .obj [("field", .str "address"), ("ref", .str "b")]])]),
    ("sequenceId", .str "1")]])]⟩

/-- A VPN with two name servers that have no role. -/
def twoServers : LegacyObject :=
  ⟨"v", "vpn", none, .featureTemplate, "cisco_vpn", .obj [("dns", .arr [
    .obj [("dns-addr", .str "10.0.0.1")], .obj [("dns-addr", .str "10.0.0.2")]]),
    ("vpn-id", .str "10")]⟩

/-- Both lists are known. -/
def bothLists : Context :=
  ((Context.empty.register .policyList "a").2.register .policyList "b").2

theorem references_widenedPolicy :
    (convert widenedPolicy (generatedId .policyDefinition "p") bothLists).map Parcel.references =
      .ok [generatedId .policyList "b"] := by
  decide +kernel

theorem servers_twoServers :
    (convert twoServers (generatedId .featureTemplate "v") bothLists).map
      (fun p => Template.servers p.data) = .ok [("primaryDnsAddressIpv4", .text "10.0.0.2")] := by
  decide +kernel

/-- Both keep what stands last in their slots. -/
theorem convert_keeps_last_widened :
    (∃ p, convert widenedPolicy (generatedId .policyDefinition "p") bothLists = .ok p ∧
      List.Forall₂ (Template.SequenceKept bothLists)
        ((Legacy.normalize Template.routePolicyHints widenedPolicy.definition).items "sequences")
        (p.data.items "sequences")) ∧
    ∃ p, convert twoServers (generatedId .featureTemplate "v") bothLists = .ok p ∧
      Template.KeepsLast Template.ServerSlot
        ((Legacy.normalize Template.vpnHints twoServers.definition).items "dns")
        fun slot f => Keyed.get? slot (Template.servers p.data) = some f := by
  obtain ⟨p, hp, -⟩ := map_eq_ok references_widenedPolicy
  obtain ⟨q, hq, -⟩ := map_eq_ok servers_twoServers
  exact ⟨⟨p, hp, (convert_keeps_last hp).1 rfl⟩, ⟨q, hq, (convert_keeps_last hq).2 rfl⟩⟩

/-- The policy matches one list less than its definition, and the VPN has one name server. -/
theorem convert_loses_entries :
    let entries := ((Legacy.normalize Template.routePolicyHints
      widenedPolicy.definition).items "sequences").flatMap (·.items "match/entries")
    let dns := (Legacy.normalize Template.vpnHints twoServers.definition).items "dns"
    entries.map (Template.fixedText? · "ref") = [.ok (some "a"), .ok (some "b")] ∧
    (∃ p, convert widenedPolicy (generatedId .policyDefinition "p") bothLists = .ok p ∧
      generatedId .policyList "a" ∉ p.references) ∧
    dns.map (Template.textOpt · "dns-addr") = [some (.text "10.0.0.1"), some (.text "10.0.0.2")] ∧
    ∃ p, convert twoServers (generatedId .featureTemplate "v") bothLists = .ok p ∧
      Template.servers p.data = [("primaryDnsAddressIpv4", .text "10.0.0.2")] := by
  intro entries dns
  obtain ⟨p, hp, hreferences⟩ := map_eq_ok references_widenedPolicy
  obtain ⟨q, hq, hservers⟩ := map_eq_ok servers_twoServers
  refine ⟨by decide +kernel, ⟨p, hp, ?_⟩, by decide +kernel, q, hq, hservers⟩
  rw [hreferences]
  decide +kernel

end ProfileMigration
