/-
  ProfileMigration.Proofs.Template.Masks

  Addresses with masks in the definitions of interfaces and routes:

    Template.ethernet_of_replaced -- an interface that converts with another address hangs on its
                                     address only
    Template.vpn_of_replaced    -- a VPN that converts with other prefixes, on the prefixes of its
                                   routes
    Legacy.leaf_withMask        -- what the text of an address and a mask is read as
    OtherwiseValid              -- an object that converts with other texts under a name
    StaticInterface, RoutedVpn  -- objects that convert exactly if such a text is a network
    convert_masks               -- masks survive conversion, and what is no mask is refused
-/
import ProfileMigration.Proofs.Legacy.Exchanging
import ProfileMigration.Proofs.Net.Masks
import ProfileMigration.Proofs.Template.Contents
import ProfileMigration.Proofs.Template.Unsetting

namespace ProfileMigration

namespace Template

variable {name : String} {w : TypedValue} {m m' : FieldMap}

/-! ## Readers -/

theorem configured?_of_replaced (h : FieldMap.Replaces name w m m') {path : String}
    (hpath : Path.leaf path ≠ name) : configured? m' path = configured? m path :=
  congrArg (Option.filter _) (h.value?_of_ne hpath)

/-- At a path under the name, what is configured may be the new value. -/
theorem configured?_or_of_replaced (h : FieldMap.Replaces name w m m')
    (hw : saysNothing w = false) (path : String) :
    configured? m' path = configured? m path ∨ configured? m' path = some w := by
  rcases h.value?_or path with hsame | ⟨-, -, hnew⟩
  · exact .inl (congrArg (Option.filter _) hsame)
  · refine .inr ?_
    rw [configured?, hnew, Option.filter_some, hw]
    rfl

theorem carry_address {source reported : String} {part : AddressPart} {v : TypedValue}
    {parts : TypedValue × TypedValue} (h : addressAndMask reported part v = .ok parts) :
    (Carriage.address reported part).carry source v = .ok parts.1 := by
  rw [Carriage.carry.eq_def]
  exact congrArg (Except.map Prod.fst) h

theorem carry_mask {source reported : String} {part : AddressPart} {v : TypedValue}
    {parts : TypedValue × TypedValue} (h : addressAndMask reported part v = .ok parts) :
    (Carriage.mask reported part).carry source v = .ok parts.2 := by
  rw [Carriage.carry.eq_def]
  exact congrArg (Except.map Prod.snd) h

/-! ## Interfaces -/

/-- An interface that converts with another address hangs on its address only. -/
theorem ethernet_of_replaced (h : FieldMap.Replaces "address" w m m') {data : FieldMap}
    (hok : ethernet m = .ok data) : ∃ dynamic make,
      boolOr m' "ip/dhcp-client" false = .ok dynamic ∧
      ethernet m' = (interfaceAddress m').map make := by
  have hsame : ∀ path, Path.leaf path ≠ "address" → configured? m' path = configured? m path :=
    fun _ => configured?_of_replaced h
  have hname := textRequired_congr (hsame "if-name" (by decide))
  have hshutdown := boolOr_congr (hsame "shutdown" (by decide)) true
  have hmtu := intOr_congr (hsame "mtu" (by decide)) 1500
  have hdynamic := boolOr_congr (hsame "ip/dhcp-client" (by decide)) false
  have hdescription := textOpt_congr (hsame "description" (by decide))
  have htunnel : interfaceTunnel m' = interfaceTunnel m := by
    rw [interfaceTunnel, interfaceTunnel, h.has,
      textOr_congr (hsame "tunnel-interface/color" (by decide)),
      boolOr_congr (hsame "nat" (by decide))]
  rw [ethernet] at hok
  obtain ⟨name, hname₀, hok⟩ := bind_eq_ok hok
  obtain ⟨shutdown, hshutdown₀, hok⟩ := bind_eq_ok hok
  obtain ⟨mtu, hmtu₀, hok⟩ := bind_eq_ok hok
  obtain ⟨address, haddress₀, hok⟩ := bind_eq_ok hok
  obtain ⟨tunnel, htunnel₀, -⟩ := bind_eq_ok hok
  rw [interfaceAddress] at haddress₀
  obtain ⟨dynamic, hdynamic₀, -⟩ := bind_eq_ok haddress₀
  refine ⟨dynamic, fun address => assemble ([("interfaceName", some name),
    ("description", textOpt m "description"), ("shutdown", some shutdown), ("mtu", some mtu)] ++
      address ++ tunnel), hdynamic.trans hdynamic₀, ?_⟩
  rw [ethernet, hname, hname₀, hshutdown, hshutdown₀, hmtu, hmtu₀, htunnel, htunnel₀, hdescription]
  cases interfaceAddress m' with
  | error e => rfl
  | ok address => rfl

/-! ## Routes -/

theorem nextHop_of_replaced (h : FieldMap.Replaces "prefix" w m m') : nextHop m' = nextHop m := by
  rw [nextHop, nextHop, textRequired_congr (configured?_of_replaced h (by decide)),
    intOr_congr (configured?_of_replaced h (by decide))]

theorem withNameServer_of_replaced (h : FieldMap.Replaces "prefix" w m m') (data : FieldMap) :
    withNameServer data m' = withNameServer data m := by
  rw [withNameServer, withNameServer, configured?_of_replaced h (by decide),
    required_congr (configured?_of_replaced h (by decide))]

/-- The network of a route, as an address and a mask. -/
def routePrefix (route : FieldMap) : Converted (TypedValue × TypedValue) :=
  required route "prefix" >>= addressAndMask "ip/route/prefix" .base

/-- What is written of a route beside its network, given that as two values. -/
def routeVia (route : FieldMap) (parts : TypedValue × TypedValue) : Converted FieldMap := do
  let data := assemble [("prefix/address", parts.1), ("prefix/mask", parts.2)]
  let hops := route.items "next-hop"
  if !hops.isEmpty then
    return FieldMap.set data "oneOfIpRoute/nextHopContainer/nextHop"
      (.items (← hops.mapM nextHop))
  else if (route.value? "null0").isSome then
    return put data "oneOfIpRoute/null0" (← boolOr route "null0" true)
  else .error (.missing "ip/route/next-hop")

theorem routePrefix_of_configured {route : FieldMap} {v : TypedValue}
    (h : configured? route "prefix" = some v) :
    routePrefix route = addressAndMask "ip/route/prefix" .base v := by
  rw [routePrefix, required, h]
  rfl

theorem staticRoute_eq (route : FieldMap) :
    staticRoute route = routePrefix route >>= routeVia route := by
  rw [staticRoute, routePrefix]
  cases required route "prefix" with
  | error e => rfl
  | ok v => rfl

/-- Whether a route leads somewhere does not depend on its network. -/
theorem routeVia_ok {route data : FieldMap} {parts : TypedValue × TypedValue}
    (h : routeVia route parts = .ok data) (other : TypedValue × TypedValue) :
    ∃ data', routeVia route other = .ok data' := by
  rw [routeVia] at h ⊢
  split at h
  · obtain ⟨hops, hhops, -⟩ := bind_eq_ok h
    rename_i hne
    rw [if_pos hne, hhops]
    exact ⟨_, rfl⟩
  · rename_i hempty
    rw [if_neg hempty]
    split at h
    · rename_i hnull
      obtain ⟨null, hbool, -⟩ := bind_eq_ok h
      rw [if_pos hnull, hbool]
      exact ⟨_, rfl⟩
    · cases h

theorem routeVia_of_replaced (h : FieldMap.Replaces "prefix" w m m')
    (parts : TypedValue × TypedValue) : routeVia m' parts = routeVia m parts := by
  have hhops : (m'.items "next-hop").mapM nextHop = (m.items "next-hop").mapM nextHop :=
    mapM_congr ((h.items "next-hop").imp fun _ _ => nextHop_of_replaced)
  have hempty : (m'.items "next-hop").isEmpty = (m.items "next-hop").isEmpty := by
    have hlength := (h.items "next-hop").length_eq
    rw [Bool.eq_iff_iff, List.isEmpty_iff_length_eq_zero, List.isEmpty_iff_length_eq_zero, hlength]
  have hnull : m'.value? "null0" = m.value? "null0" := h.value?_of_ne (by decide)
  have hconfigured : configured? m' "null0" = configured? m "null0" :=
    configured?_of_replaced h (by decide)
  rw [routeVia, routeVia, hhops, hempty, hnull,
    boolOr_congr hconfigured]

/-- A route that converts with another prefix hangs on its prefix only: it converts if that is a
    network, and else it fails as the prefix does. -/
theorem staticRoute_of_replaced (h : FieldMap.Replaces "prefix" w m m') {out : FieldMap}
    (hok : staticRoute m = .ok out) : ∃ parts, routePrefix m = .ok parts ∧
      (∀ parts', routePrefix m' = .ok parts' → ∃ out', staticRoute m' = .ok out') ∧
      ∀ e, routePrefix m' = .error e → staticRoute m' = .error e := by
  rw [staticRoute_eq] at hok
  obtain ⟨parts, hparts, hvia⟩ := bind_eq_ok hok
  refine ⟨parts, hparts, fun parts' hparts' => ?_, fun e he => ?_⟩
  · obtain ⟨out', hout'⟩ := routeVia_ok hvia parts'
    refine ⟨out', ?_⟩
    rw [staticRoute_eq, hparts']
    exact (routeVia_of_replaced h parts').trans hout'
  · rw [staticRoute_eq, he]
    rfl

/-- A VPN that converts with other prefixes hangs on the prefixes of its routes only. -/
theorem vpn_of_replaced (h : FieldMap.Replaces "prefix" w m m') {made : ParcelType × FieldMap}
    (hok : vpn m = .ok made) : ∃ routes make,
      (m.items "ip/route").mapM staticRoute = .ok routes ∧
      vpn m' = ((m'.items "ip/route").mapM staticRoute).map make := by
  have hsame : ∀ path, Path.leaf path ≠ "prefix" → configured? m' path = configured? m path :=
    fun _ => configured?_of_replaced h
  have hid := intRequired_congr (hsame "vpn-id" (by decide))
  have hname := textOpt_congr (hsame "name" (by decide))
  have hservers : ∀ data, (m'.items "dns").foldlM withNameServer data =
      (m.items "dns").foldlM withNameServer data :=
    foldlM_congr ((h.items "dns").imp fun _ _ => withNameServer_of_replaced)
  rw [vpn] at hok
  obtain ⟨id, hid₀, hok⟩ := bind_eq_ok hok
  obtain ⟨type, htype₀, hok⟩ := bind_eq_ok hok
  obtain ⟨data, hdata₀, hok⟩ := bind_eq_ok hok
  obtain ⟨routes, hroutes, -⟩ := bind_eq_ok hok
  refine ⟨routes, fun routes => (type, withItems data "ipv4Route" routes), hroutes, ?_⟩
  rw [vpn, hid, hid₀, hname]
  dsimp only [bind, Except.bind]
  rw [htype₀, hservers, hdata₀]
  cases (m'.items "ip/route").mapM staticRoute with
  | error e => rfl
  | ok routes => rfl

/-- The route of a VPN that converts with other prefixes converts with the new one if that is a
    network, and else it fails as that does. -/
theorem staticRoute_or_of_replaced (h : FieldMap.Replaces "prefix" w m m')
    (hw : saysNothing w = false) {out : FieldMap} (hok : staticRoute m = .ok out) :
    (∃ out', staticRoute m' = .ok out') ∨
      ∃ e, addressAndMask "ip/route/prefix" .base w = .error e ∧ staticRoute m' = .error e := by
  obtain ⟨parts, hparts, hgood, hbad⟩ := staticRoute_of_replaced h hok
  rcases configured?_or_of_replaced h hw "prefix" with hsame | hnew
  · refine .inl (hgood parts ?_)
    rw [routePrefix, required_congr hsame]
    exact hparts
  · have hroute := routePrefix_of_configured hnew
    cases hsplit : addressAndMask "ip/route/prefix" .base w with
    | ok parts' => exact .inl (hgood parts' (hroute.trans hsplit))
    | error e => exact .inr ⟨e, rfl, hbad e (hroute.trans hsplit)⟩

end Template

/-! ## Texts of addresses with masks -/

namespace Legacy

variable {a : BitVec 32} {s t key : String} {hints : Hints}

theorem truthOf_of_point (h : '.' ∈ s.toList) : truthOf s = none := by
  have hlower : '.' ∈ s.toList.map Char.toLower := List.mem_map.mpr ⟨'.', h, rfl⟩
  have hne : ∀ word : String, '.' ∉ word.toList.map Char.toLower →
      ¬ Text.sameIgnoringCase s word = true := by
    intro word hword hsame
    rw [Text.sameIgnoringCase, beq_iff_eq] at hsame
    exact hword (hsame ▸ hlower)
  rw [truthOf, if_neg (hne "true" (by decide)), if_neg (hne "false" (by decide))]

/-- Where an address is declared, an address with a mask is read as a network, and one with
    anything else as mere text. -/
theorem leaf_withMask (hkind : hints.kind? key = some .address) (hs : Net.WithMask a t s) :
    leaf hints key (.str s) =
      ((Net.maskText? t).map fun n => Literal.network (.v4 a n)).getD (.str s) := by
  have hparse := Net.parseAddress?_withMask hs
  have htrim : Net.parseAddress? (Text.trim s) = Net.parseAddress? s := by
    rw [Net.parseAddress?, Net.parseAddress?, Text.trim_trim]
  have hcoerce : coerce .address (.str s) =
      (Net.maskText? t).map fun n => Literal.network (.v4 a n) := by
    rw [coerce, coerceScalar, scalarText?, Option.bind_some, htrim, hparse, Option.map_map]
    · rfl
    · intro _ h
      cases h
  have hpoint : '.' ∈ s.toList := by
    obtain ⟨-, lead, gap, trail, -, -, htext⟩ := hs
    rw [htext, Net.toList_ipv4Text]
    simp [Net.dotted, List.intercalate_cons_cons]
  rw [leaf, hkind, Option.bind_some, hcoerce]
  cases hlength : Net.maskText? t with
  | some n => rfl
  | none =>
    rw [hlength] at hparse
    rw [Option.map_none, undeclared, inferText, truthOf_of_point hpoint, hparse]
    rfl

/-- It says something in any case. -/
theorem saysNothing_withMask (hkind : hints.kind? key = some .address) (hs : Net.WithMask a t s) :
    Template.saysNothing (.fixed (leaf hints key (.str s))) = false := by
  rw [leaf_withMask hkind hs]
  cases Net.maskText? t with
  | some n => rfl
  | none =>
    refine decide_eq_false fun hempty => ?_
    obtain ⟨-, lead, gap, trail, -, hgap, htext⟩ := hs
    rw [hempty] at htext
    simp [hgap] at htext

end Legacy

namespace Template

variable {a m : BitVec 32} {s t key field : String} {hints : Hints} {part : AddressPart}

/-- A network so written makes its address, with or without the bits behind the prefix, and its
    mask. -/
theorem addressAndMask_withMask (hkind : hints.kind? key = some .address)
    (hs : Net.WithMask a t s) {n : Fin 33} (hm : Net.IsMask m n) (ht : t = Net.ipv4Text m) :
    addressAndMask field part (.fixed (Legacy.leaf hints key (.str s))) =
      .ok (.text (Net.ipv4Text (match part with | .host => a | .base => a &&& m)),
        .text (Net.ipv4Text m)) := by
  rw [Legacy.leaf_withMask hkind hs, Net.maskText?_eq_some_iff.mpr ⟨m, hm, ht⟩,
    Net.isMask_iff.mp hm]
  rfl

/-- What is no network is refused. -/
theorem addressAndMask_withoutMask (hkind : hints.kind? key = some .address)
    (hs : Net.WithMask a t s)
    (ht : ∀ (m : BitVec 32) (n : Fin 33), Net.IsMask m n → t ≠ Net.ipv4Text m) :
    addressAndMask field part (.fixed (Legacy.leaf hints key (.str s))) =
      .error (.unsupported field
        ("expected address/length, got " ++ shownLiteral (some (.str s)))) := by
  rw [Legacy.leaf_withMask hkind hs, Net.maskText?_eq_none_iff.mpr ht]
  rfl

end Template

/-! ## Converted objects -/

/-- An object that converts if other texts stand for some of those under a name that are a given
    one. -/
def OtherwiseValid (name s : String) (o : LegacyObject) (id : Uuid) (c : Context) : Prop :=
  ∃ others members p, o.definition = .obj members ∧
    Legacy.RewritesMembers (Legacy.Exchanges name s) others members ∧
    convert { o with definition := .obj others } id c = .ok p

/-- An otherwise valid interface with a text as its static address. -/
structure StaticInterface (s : String) (o : LegacyObject) (id : Uuid) (c : Context) : Prop where
  kind : o.kind = "cisco_vpn_interface"
  valid : OtherwiseValid "address" s o id c
  static : Template.isDynamic (Legacy.normalize Template.ethernetHints o.definition) = false
  address : Legacy.contentAt? o.root "ip/address" = some (.str s)

/-- A VPN that is valid up to a text among the prefixes of its routes. -/
structure RoutedVpn (s : String) (o : LegacyObject) (id : Uuid) (c : Context) : Prop where
  kind : o.kind = "cisco_vpn"
  valid : OtherwiseValid "prefix" s o id c

variable {a : BitVec 32} {s t : String} {o : LegacyObject} {id : Uuid} {c : Context}

open Template (ethernetHints vpnHints addressAndMask)

namespace StaticInterface

theorem root_eq (h : StaticInterface s o id c) : o.root = o.definition.members?.getD [] := by
  rw [LegacyObject.root, h.kind]
  rfl

/-- What is configured as the address. -/
theorem configured? (h : StaticInterface s o id c) (hs : Net.WithMask a t s) :
    Template.configured? (Legacy.normalizeMembers ethernetHints o.root) "ip/address" =
      some (.fixed (Legacy.leaf ethernetHints "address" (.str s))) := by
  have hvalue : (Legacy.normalizeMembers ethernetHints o.root).value? "ip/address" =
      some (.fixed (Legacy.leaf ethernetHints "ip/address" (.str s))) :=
    Legacy.value?_of_contentAt? h.address fun _ => rfl
  have hleaf : Legacy.leaf ethernetHints "ip/address" (.str s) =
      Legacy.leaf ethernetHints "address" (.str s) :=
    Legacy.leaf_congr _ (by decide) _
  rw [Template.configured?, hvalue, hleaf, Option.filter_some,
    Legacy.saysNothing_withMask (by decide) hs]
  rfl

/-- Whether such an interface converts hangs on its address. -/
theorem convert_eq (h : StaticInterface s o id c) (hs : Net.WithMask a t s) :
    ∃ make, convert o id c = (addressAndMask "ip/address" .host
      (.fixed (Legacy.leaf ethernetHints "address" (.str s)))).map make := by
  obtain ⟨others, members, p, hmembers, hrewrites, hok⟩ := h.valid
  have ht : template? o.kind = some (Template.plain "cisco_vpn_interface" ethernetHints .ethernet
      Template.ethernet) := by
    rw [h.kind]
    rfl
  have hother : (Template.ethernet (Legacy.normalizeMembers ethernetHints others)).map
      (ParcelType.ethernet, ·) = .ok (p.type, p.data) := content_of_convert (by exact ht) hok
  obtain ⟨data, hdata, -⟩ := map_eq_ok hother
  obtain ⟨dynamic, make, hdynamic, hethernet⟩ := Template.ethernet_of_replaced
    (Legacy.replaces_normalizeMembers (by decide) hrewrites) hdata
  have hstatic : dynamic ≠ .bool true := by
    have hstatic := h.static
    rw [hmembers, Legacy.normalize, Template.isDynamic, hdynamic] at hstatic
    exact of_decide_eq_false hstatic
  have hroot : o.root = members := by
    rw [h.root_eq, hmembers]
    rfl
  have hconfigured := h.configured? hs
  rw [hroot] at hconfigured
  generalize TypedValue.fixed (Legacy.leaf ethernetHints "address" (.str s)) = v at hconfigured ⊢
  have haddress : Template.interfaceAddress (Legacy.normalizeMembers ethernetHints members) =
      (addressAndMask "ip/address" .host v).map fun parts =>
        [("intfIpAddress/static/staticIpV4AddressPrimary/ipAddress", some parts.1),
          ("intfIpAddress/static/staticIpV4AddressPrimary/subnetMask", some parts.2)] := by
    rw [Template.interfaceAddress, hdynamic]
    refine (if_neg hstatic).trans ?_
    rw [hconfigured]
    dsimp only
    cases addressAndMask "ip/address" .host v with
    | error e => rfl
    | ok parts => rfl
  have hcontent : convert o id c =
      ((Template.ethernet (Legacy.normalizeMembers ethernetHints members)).map
        (ParcelType.ethernet, ·)).map fun content =>
          ⟨some id, o.name, o.description, content.1, content.2⟩ := by
    rw [convert, ht, hmembers]
    rfl
  refine ⟨fun parts => ⟨some id, o.name, o.description, .ethernet,
    make [("intfIpAddress/static/staticIpV4AddressPrimary/ipAddress", some parts.1),
      ("intfIpAddress/static/staticIpV4AddressPrimary/subnetMask", some parts.2)]⟩, ?_⟩
  rw [hcontent, hethernet, haddress]
  cases addressAndMask "ip/address" .host v with
  | error e => rfl
  | ok parts => rfl

/-- The address and the mask of an interface that converts. -/
theorem address_and_mask (h : StaticInterface s o id c) (hs : Net.WithMask a t s) {p : Parcel}
    {parts : TypedValue × TypedValue} (hp : convert o id c = .ok p)
    (hsplit : addressAndMask "ip/address" .host
      (.fixed (Legacy.leaf ethernetHints "address" (.str s))) = .ok parts) :
    p.data.value? "intfIpAddress/static/staticIpV4AddressPrimary/ipAddress" = some parts.1 ∧
    p.data.value? "intfIpAddress/static/staticIpV4AddressPrimary/subnetMask" = some parts.2 := by
  have ht : template? o.kind = some (Template.plain "cisco_vpn_interface" ethernetHints .ethernet
      Template.ethernet) := by
    rw [h.kind]
    rfl
  have hcarries := convert_carries ht hp
  have hsites : Template.sites o.kind = Template.ethernetSites := by
    rw [h.kind]
    rfl
  have hconfigured := h.configured? hs
  have hdue : Template.isStatic (Legacy.normalizeMembers ethernetHints o.root) = true := by
    have hstatic := h.static
    rw [Legacy.normalize_eq, ← h.root_eq] at hstatic
    rw [Template.isStatic, hstatic, hconfigured]
    rfl
  have hread : ∀ how target, Template.siteIf Template.isStatic "ip/address" how target ∈
      Template.ethernetSites → ∃ w, how.carry "ip/address"
        (.fixed (Legacy.leaf ethernetHints "address" (.str s))) = .ok w ∧
          p.data.value? target = some w := by
    intro how target hmem
    have hmade : Template.isStatic (Legacy.normalizeMembers ethernetHints o.root) = true →
        Template.Carried how (Legacy.normalizeMembers ethernetHints o.root) "ip/address"
          (p.data.value? target) :=
      hcarries.sites (Template.siteIf Template.isStatic "ip/address" how target) (hsites ▸ hmem)
    exact hmade hdue _ hconfigured
  obtain ⟨first, hfirst, haddress⟩ := hread (.address "ip/address" .host)
    "intfIpAddress/static/staticIpV4AddressPrimary/ipAddress"
    (by simp [Template.ethernetSites, Template.addressSites])
  obtain ⟨second, hsecond, hmask⟩ := hread (.mask "ip/address" .host)
    "intfIpAddress/static/staticIpV4AddressPrimary/subnetMask"
    (by simp [Template.ethernetSites, Template.addressSites])
  rw [haddress, hmask, Except.ok.inj ((Template.carry_address hsplit).symm.trans hfirst),
    Except.ok.inj ((Template.carry_mask hsplit).symm.trans hsecond)]
  exact ⟨rfl, rfl⟩

end StaticInterface

namespace RoutedVpn

theorem root_eq (h : RoutedVpn s o id c) : o.root = o.definition.members?.getD [] := by
  rw [LegacyObject.root, h.kind]
  rfl

theorem template?_eq (h : RoutedVpn s o id c) :
    template? o.kind = some ⟨["cisco_vpn"], vpnHints, fun _ values => Template.vpn values⟩ := by
  rw [h.kind]
  rfl

/-- Such a VPN converts as its routes do, and each of these converts or fails as the new prefix. -/
theorem convert_eq (h : RoutedVpn s o id c) (hs : Net.WithMask a t s) :
    ∃ make, convert o id c = (((Legacy.normalizeMembers vpnHints o.root).items "ip/route").mapM
        Template.staticRoute).map make ∧
      ∀ route ∈ (Legacy.normalizeMembers vpnHints o.root).items "ip/route",
        (∃ out, Template.staticRoute route = .ok out) ∨
          ∃ e, addressAndMask "ip/route/prefix" .base
              (.fixed (Legacy.leaf vpnHints "prefix" (.str s))) = .error e ∧
            Template.staticRoute route = .error e := by
  obtain ⟨others, members, p, hmembers, hrewrites, hok⟩ := h.valid
  have hother : Template.vpn (Legacy.normalizeMembers vpnHints others) = .ok (p.type, p.data) :=
    content_of_convert (by exact h.template?_eq) hok
  have hreplaces : FieldMap.Replaces "prefix" (.fixed (Legacy.leaf vpnHints "prefix" (.str s)))
      (Legacy.normalizeMembers vpnHints others) (Legacy.normalizeMembers vpnHints members) :=
    Legacy.replaces_normalizeMembers (by decide) hrewrites
  obtain ⟨routes, make, hroutes, hvpn⟩ := Template.vpn_of_replaced hreplaces hother
  have hroot : o.root = members := by
    rw [h.root_eq, hmembers]
    rfl
  rw [hroot]
  refine ⟨fun routes => ⟨some id, o.name, o.description, (make routes).1, (make routes).2⟩, ?_, ?_⟩
  · have hcontent : convert o id c =
        (Template.vpn (Legacy.normalizeMembers vpnHints members)).map fun content =>
          ⟨some id, o.name, o.description, content.1, content.2⟩ := by
      rw [convert, h.template?_eq, hmembers]
      rfl
    rw [hcontent, hvpn]
    cases ((Legacy.normalizeMembers vpnHints members).items "ip/route").mapM
        Template.staticRoute with
    | error e => rfl
    | ok routes => rfl
  · have hconverted := exists_mapM_eq_ok_iff.mp ⟨routes, hroutes⟩
    have hsays : Template.saysNothing (.fixed (Legacy.leaf vpnHints "prefix" (.str s))) = false :=
      Legacy.saysNothing_withMask (by decide) hs
    refine forall_mem_right_of_forall₂ (hreplaces.items "ip/route") hconverted ?_
    rintro route route' hroute ⟨out, hout⟩
    exact Template.staticRoute_or_of_replaced hroute hsays hout

/-- What is configured as the prefix of a route. -/
theorem configured? {route : List (String × Json)} (hs : Net.WithMask a t s)
    (h : Legacy.contentAt? route "prefix" = some (.str s)) :
    Template.configured? (Legacy.normalizeMembers vpnHints route) "prefix" =
      some (.fixed (Legacy.leaf vpnHints "prefix" (.str s))) := by
  have hvalue : (Legacy.normalizeMembers vpnHints route).value? "prefix" =
      some (.fixed (Legacy.leaf vpnHints "prefix" (.str s))) :=
    Legacy.value?_of_contentAt? h fun _ => rfl
  rw [Template.configured?, hvalue, Option.filter_some, Legacy.saysNothing_withMask (by decide) hs]
  rfl

/-- What is carried over of the prefixes of a VPN that converts. -/
theorem prefix_carried (h : RoutedVpn s o id c) (hs : Net.WithMask a t s) {p : Parcel}
    (hp : convert o id c = .ok p) {how : Template.Carriage} {target : String} {w : TypedValue}
    (hmem : Template.site "prefix" how target ∈ Template.prefixSites)
    (hcarry : how.carry "prefix" (.fixed (Legacy.leaf vpnHints "prefix" (.str s))) = .ok w) :
    List.Forall₂ (fun route out => Legacy.contentAt? route "prefix" = some (.str s) →
        out.value? target = some w)
      (Legacy.rowsAt o.root "ip/route") (p.data.items "ipv4Route") := by
  have hsites : Template.sites o.kind = Template.vpnSites := by
    rw [h.kind]
    rfl
  have hsite : (Template.site "prefix" how target).below ("ip/route", "ipv4Route") ∈
      Template.sites o.kind := by
    rw [hsites]
    exact List.mem_append_right _
      (List.mem_map_of_mem (List.mem_append_left _ (List.mem_append_left _ hmem)))
  have hmade := (convert_carries h.template?_eq hp).sites _ hsite
  have heach : ((Template.site "prefix" how target).below ("ip/route", "ipv4Route")).Each vpnHints
      (fun route made => Legacy.contentAt? route "prefix" = some (.str s) → made w)
      o.root p.data := by
    refine hmade.each fun route made hcarried hcontent => ?_
    obtain ⟨w', hw', hmade⟩ := hcarried _ (configured? hs hcontent)
    rwa [Except.ok.inj (hcarry.symm.trans hw')]
  exact heach.imp fun route out hout => hout rfl

/-- Where the new prefix is a network, such a VPN converts, and the routes that it stands in have
    its address and its mask. -/
theorem convert_ok (h : RoutedVpn s o id c) (hs : Net.WithMask a t s)
    {parts : TypedValue × TypedValue} (hsplit : addressAndMask "ip/route/prefix" .base
      (.fixed (Legacy.leaf vpnHints "prefix" (.str s))) = .ok parts) :
    ∃ p, convert o id c = .ok p ∧ List.Forall₂ (fun route out =>
      Legacy.contentAt? route "prefix" = some (.str s) →
        out.value? "prefix/address" = some parts.1 ∧ out.value? "prefix/mask" = some parts.2)
      (Legacy.rowsAt o.root "ip/route") (p.data.items "ipv4Route") := by
  obtain ⟨make, hconvert, hroutes⟩ := h.convert_eq hs
  obtain ⟨outs, houts⟩ : ∃ outs, ((Legacy.normalizeMembers vpnHints o.root).items "ip/route").mapM
      Template.staticRoute = .ok outs := by
    refine exists_mapM_eq_ok_iff.mpr fun route hroute => (hroutes route hroute).resolve_right ?_
    rintro ⟨e, he, -⟩
    cases hsplit.symm.trans he
  have hp : convert o id c = .ok (make outs) := by
    rw [hconvert, houts]
    rfl
  have haddress := h.prefix_carried hs hp List.mem_cons_self (Template.carry_address hsplit)
  have hmask := h.prefix_carried hs hp (List.mem_cons_of_mem _ List.mem_cons_self)
    (Template.carry_mask hsplit)
  exact ⟨make outs, hp, haddress.mp (fun _ _ hfirst hsecond hcontent =>
    ⟨hfirst hcontent, hsecond hcontent⟩) hmask⟩

/-- Where it is none, such a VPN fails as it does. -/
theorem convert_error (h : RoutedVpn s o id c) (hs : Net.WithMask a t s) {e : ConversionError}
    (hsplit : addressAndMask "ip/route/prefix" .base
      (.fixed (Legacy.leaf vpnHints "prefix" (.str s))) = .error e)
    (hroute : ∃ route ∈ Legacy.rowsAt o.root "ip/route",
      Legacy.contentAt? route "prefix" = some (.str s)) : convert o id c = .error e := by
  obtain ⟨make, hconvert, hroutes⟩ := h.convert_eq hs
  obtain ⟨route, hmem, hcontent⟩ := hroute
  have hitem : Legacy.normalizeMembers vpnHints route ∈
      (Legacy.normalizeMembers vpnHints o.root).items "ip/route" := by
    rw [Legacy.items_normalizeMembers]
    exact List.mem_map_of_mem hmem
  have hfails : Template.staticRoute (Legacy.normalizeMembers vpnHints route) = .error e := by
    rw [Template.staticRoute_eq, Template.routePrefix_of_configured (configured? hs hcontent),
      hsplit]
    rfl
  have hall : ((Legacy.normalizeMembers vpnHints o.root).items "ip/route").mapM
      Template.staticRoute = .error e := by
    refine mapM_eq_error_of_alike (fun route hroute => (hroutes route hroute).imp_right ?_)
      ⟨_, hitem, hfails⟩
    rintro ⟨e', he, hroute⟩
    rwa [Except.error.inj (hsplit.symm.trans he)]
  rw [hconvert, hall]
  rfl

end RoutedVpn

/-- Masks survive conversion. A text of an address and, behind blanks, the dotted mask of a length
    denotes the network of that address and length, with all bits of the address kept, as does
    `address/length`; an otherwise valid interface with it as its static address gets the address
    and the mask, and an otherwise valid VPN with it among the prefixes of its routes the address
    of the network and the mask in these. With anything else behind the address it denotes nothing,
    and neither of them converts. -/
theorem convert_masks {a : BitVec 32} {t s : String} (hs : Net.WithMask a t s) :
    (∀ (m : BitVec 32) (n : Fin 33), Net.IsMask m n → t = Net.ipv4Text m →
      Net.parseAddress? s = some (.network (.v4 a n)) ∧
      Net.parseAddress? s!"{Net.ipv4Text a}/{n.val}" = Net.parseAddress? s ∧
      (∀ o id c, StaticInterface s o id c → ∃ p, convert o id c = .ok p ∧
        p.data.value? "intfIpAddress/static/staticIpV4AddressPrimary/ipAddress" =
          some (.text (Net.ipv4Text a)) ∧
        p.data.value? "intfIpAddress/static/staticIpV4AddressPrimary/subnetMask" =
          some (.text (Net.ipv4Text m))) ∧
      ∀ o id c, RoutedVpn s o id c → ∃ p, convert o id c = .ok p ∧
        List.Forall₂ (fun route out => Legacy.contentAt? route "prefix" = some (.str s) →
            out.value? "prefix/address" = some (.text (Net.ipv4Text (a &&& m))) ∧
            out.value? "prefix/mask" = some (.text (Net.ipv4Text m)))
          (Legacy.rowsAt o.root "ip/route") (p.data.items "ipv4Route")) ∧
    ((∀ (m : BitVec 32) (n : Fin 33), Net.IsMask m n → t ≠ Net.ipv4Text m) →
      Net.parseAddress? s = none ∧
      (∀ o id c, StaticInterface s o id c → convert o id c = .error (.unsupported "ip/address"
        ("expected address/length, got " ++ Template.shownLiteral (some (.str s))))) ∧
      ∀ o id c, RoutedVpn s o id c →
        (∃ route ∈ Legacy.rowsAt o.root "ip/route",
          Legacy.contentAt? route "prefix" = some (.str s)) →
        convert o id c = .error (.unsupported "ip/route/prefix"
          ("expected address/length, got " ++ Template.shownLiteral (some (.str s))))) := by
  have hparse := Net.parseAddress?_withMask hs
  refine ⟨fun m n hm ht => ?_, fun ht => ?_⟩
  · have hnetwork : Net.parseAddress? s = some (.network (.v4 a n)) := by
      rw [hparse, Net.maskText?_eq_some_iff.mpr ⟨m, hm, ht⟩]
      rfl
    refine ⟨hnetwork, ?_, fun o id c h => ?_, fun o id c h => ?_⟩
    · rw [hnetwork]
      exact Net.parseAddress?_text (.v4 a n)
    · have hsplit : addressAndMask "ip/address" .host
          (.fixed (Legacy.leaf ethernetHints "address" (.str s))) =
            .ok (.text (Net.ipv4Text a), .text (Net.ipv4Text m)) :=
        Template.addressAndMask_withMask (by decide) hs hm ht
      obtain ⟨make, hconvert⟩ := h.convert_eq hs
      rw [hsplit] at hconvert
      exact ⟨_, hconvert, h.address_and_mask hs hconvert hsplit⟩
    · exact h.convert_ok hs (Template.addressAndMask_withMask (by decide) hs hm ht)
  · refine ⟨?_, fun o id c h => ?_, fun o id c h hroute => ?_⟩
    · rw [hparse, Net.maskText?_eq_none_iff.mpr ht]
      rfl
    · obtain ⟨make, hconvert⟩ := h.convert_eq hs
      rw [hconvert, Template.addressAndMask_withoutMask (by decide) hs ht]
      rfl
    · exact h.convert_error hs (Template.addressAndMask_withoutMask (by decide) hs ht) hroute

/-- An interface with a given text as its address. -/
def addressedInterface (s : String) : LegacyObject :=
  objectOf "cisco_vpn_interface" [("if-name", .str "ge0"), ("ip", .obj [("address", .str s)])]

/-- A VPN with a route to nowhere for a given text. -/
def routedVpn (s : String) : LegacyObject :=
  objectOf "cisco_vpn" [("vpn-id", .str "10"), ("ip", .obj [("route", .arr [
    .obj [("prefix", .str s), ("null0", .bool true)]])])]

/-- An address with a mask, and one with a hole in the mask. -/
def maskedTexts : List String := [" 10.1.2.3  255.255.0.0", "10.1.2.3 255.0.255.0"]

theorem staticInterface_addressedInterface : ∀ s ∈ maskedTexts,
    StaticInterface s (addressedInterface s) (generatedId .featureTemplate "x") ⟨[], []⟩ := by
  have hother : (convert (addressedInterface "10.0.0.1/24") (generatedId .featureTemplate "x")
      ⟨[], []⟩).map (·.type) = .ok .ethernet := by
    decide +kernel
  have hread : ∀ s ∈ maskedTexts,
      Template.isDynamic (Legacy.normalize ethernetHints (addressedInterface s).definition) =
        false ∧
      Legacy.contentAt? (addressedInterface s).root "ip/address" = some (.str s) := by
    decide +kernel
  obtain ⟨p, hp, -⟩ := map_eq_ok hother
  intro s hs
  obtain ⟨hstatic, haddress⟩ := hread s hs
  refine ⟨rfl, ⟨_, _, p, rfl, ?_, hp⟩, hstatic, haddress⟩
  exact .cons (.same _ _) (.cons (.object rfl (.cons (.step (.same _ _)
    ⟨by decide, ⟨_, rfl⟩, rfl⟩) .nil)) .nil)

theorem routedVpn_routedVpn : ∀ s ∈ maskedTexts,
    RoutedVpn s (routedVpn s) (generatedId .featureTemplate "x") ⟨[], []⟩ := by
  have hother : (convert (routedVpn "10.0.0.0/24") (generatedId .featureTemplate "x")
      ⟨[], []⟩).map (·.type) = .ok .lanVpn := by
    decide +kernel
  obtain ⟨p, hp, -⟩ := map_eq_ok hother
  intro s hs
  refine ⟨rfl, ⟨_, _, p, rfl, ?_, hp⟩⟩
  exact .cons (.same _ _) (.cons (.object rfl (.cons (.list (.cons (.cons (.step (.same _ _)
    ⟨by decide, ⟨_, rfl⟩, rfl⟩) (.cons (.same _ _) .nil)) .nil)) .nil)) .nil)

/-- Blanks around do no harm, and a mask with a hole is none. -/
theorem convert_masks_sixteen :
    (Net.WithMask 0x0A010203#32 "255.255.0.0" " 10.1.2.3  255.255.0.0" ∧
      Net.parseAddress? " 10.1.2.3  255.255.0.0" = some (.network (.v4 0x0A010203#32 16)) ∧
      ∃ p, convert (addressedInterface " 10.1.2.3  255.255.0.0")
          (generatedId .featureTemplate "x") ⟨[], []⟩ = .ok p ∧
        p.data.value? "intfIpAddress/static/staticIpV4AddressPrimary/ipAddress" =
          some (.text (Net.ipv4Text 0x0A010203#32)) ∧
        p.data.value? "intfIpAddress/static/staticIpV4AddressPrimary/subnetMask" =
          some (.text (Net.ipv4Text 0xFFFF0000#32))) ∧
    Net.WithMask 0x0A010203#32 "255.0.255.0" "10.1.2.3 255.0.255.0" ∧
      convert (routedVpn "10.1.2.3 255.0.255.0") (generatedId .featureTemplate "x") ⟨[], []⟩ =
        .error (.unsupported "ip/route/prefix"
          ("expected address/length, got Some(\"10.1.2.3 255.0.255.0\")")) := by
  have hsixteen : Net.ipv4Text 0xFFFF0000#32 = "255.255.0.0" := by decide +kernel
  have hholed : Net.ipv4Text 0xFF00FF00#32 = "255.0.255.0" := by decide +kernel
  have hmask : Net.WithMask 0x0A010203#32 "255.255.0.0" " 10.1.2.3  255.255.0.0" :=
    ⟨hsixteen ▸ Net.dotted_ipv4Text _, [' '], [' ', ' '], [], List.all_eq_true.mp (by decide),
      by decide, by decide +kernel⟩
  have hhole : Net.WithMask 0x0A010203#32 "255.0.255.0" "10.1.2.3 255.0.255.0" :=
    ⟨hholed ▸ Net.dotted_ipv4Text _, [], [' '], [], List.all_eq_true.mp (by decide),
      by decide, by decide +kernel⟩
  have hnone : ∀ (m : BitVec 32) (n : Fin 33), Net.IsMask m n → "255.0.255.0" ≠ Net.ipv4Text m :=
    Net.maskText?_eq_none_iff.mp (by decide +kernel)
  obtain ⟨hparse, -, hinterface, -⟩ :=
    (convert_masks hmask).1 0xFFFF0000#32 16 (by decide +kernel) hsixteen.symm
  obtain ⟨-, -, hvpn⟩ := (convert_masks hhole).2 hnone
  refine ⟨⟨hmask, hparse, hinterface _ _ _ (staticInterface_addressedInterface _ ?_)⟩, hhole,
    hvpn _ _ _ (routedVpn_routedVpn _ ?_) ?_⟩
  all_goals decide +kernel

end ProfileMigration
