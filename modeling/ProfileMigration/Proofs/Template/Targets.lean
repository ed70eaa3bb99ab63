/-
  ProfileMigration.Proofs.Template.Targets

  Which objects a converted parcel may refer to:

    ParcelType.target?          -- the family of the objects that parcels of a type refer to
    Targeted                    -- the identifiers of such objects in a context
    Template.yields_content     -- every template makes parcels that refer to nothing else

  A parcel refers to what the context resolves, and to what its definition refers to, which is
  nothing as long as no variable is called like an identifier.
-/
import ProfileMigration.Proofs.Legacy.Variables
import ProfileMigration.Proofs.Template.Reading
import ProfileMigration.Proofs.Template.Steadiness

namespace ProfileMigration.Template

variable {S : Uuid → Prop} {values : FieldMap}

/-! ## Templates that refer to nothing of their own -/

theorem yields_basic (h : values.RefersOnly S) : Yields (FieldMap.RefersOnly S) (basic values) := by
  rw [basic]
  refine (yields_intOpt h _).bind fun sessions hsessions => ?_
  refine (yields_boolOr h _ _).bind fun trackTransport htrack => ?_
  refine (yields_boolOr h _ _).bind fun portHop hport => ?_
  refine (yields_boolOr h _ _).bind fun trackGateway hgateway => ?_
  refine .pure (refersOnly_assemble ?_)
  simp [given_some_iff, given_textOr h, given_textOpt h, given_configured? h, *]

theorem yields_banner (h : values.RefersOnly S) :
    Yields (FieldMap.RefersOnly S) (banner values) := by
  refine .pure (refersOnly_assemble ?_)
  simp [given_textOr h]

theorem yields_logServer {server : FieldMap} (h : server.RefersOnly S) :
    Yields (FieldMap.RefersOnly S) (logServer server) := by
  rw [logServer]
  refine (yields_textRequired h _).bind fun name hname => ?_
  refine (yields_intOr h _ _).bind fun vpn hvpn => ?_
  refine (yields_boolOr h _ _).bind fun encrypted hencrypted => ?_
  refine .pure (refersOnly_assemble ?_)
  simp [given_some_iff, given_textOr h, given_textOpt h, *]

theorem yields_logging (h : values.RefersOnly S) :
    Yields (FieldMap.RefersOnly S) (logging values) := by
  rw [logging]
  refine (yields_boolOr h _ _).bind fun enabled henabled => ?_
  refine (yields_intOr h _ _).bind fun size hsize => ?_
  refine (yields_intOr h _ _).bind fun rotate hrotate => ?_
  refine (Yields.mapM fun server hserver => yields_logServer (h.items server hserver)).bind
    fun servers hservers => ?_
  refine .pure (refersOnly_withItems (refersOnly_assemble ?_) hservers _)
  simp [given_some_iff, *]

theorem yields_timeServer {server : FieldMap} (h : server.RefersOnly S) :
    Yields (FieldMap.RefersOnly S) (timeServer server) := by
  rw [timeServer]
  refine (yields_textRequired h _).bind fun name hname => ?_
  refine (yields_intOr h _ _).bind fun vpn hvpn => ?_
  refine (yields_intOr h _ _).bind fun version hversion => ?_
  refine (yields_intOpt h _).bind fun key hkey => ?_
  refine (yields_boolOr h _ _).bind fun preferred hpreferred => ?_
  refine .pure (refersOnly_assemble ?_)
  simp [given_some_iff, given_textOpt h, *]

theorem yields_timeKey {key : FieldMap} (h : key.RefersOnly S) :
    Yields (FieldMap.RefersOnly S) (timeKey key) := by
  rw [timeKey]
  refine (yields_intRequired h _).bind fun number hnumber => ?_
  refine (yields_textRequired h _).bind fun secret hsecret => ?_
  refine .pure (refersOnly_assemble ?_)
  simp [given_some_iff, *]

theorem yields_ntp (h : values.RefersOnly S) : Yields (FieldMap.RefersOnly S) (ntp values) := by
  rw [ntp]
  refine (Yields.mapM fun server hserver => yields_timeServer (h.items server hserver)).bind
    fun servers hservers => ?_
  refine (Yields.mapM fun key hkey => yields_timeKey (h.items key hkey)).bind
    fun keys hkeys => ?_
  refine (yields_boolOr h _ _).bind fun leads hleads => ?_
  refine (yields_intOpt h _).bind fun stratum hstratum => ?_
  have hdata : FieldMap.RefersOnly S (assemble [
      ("authentication/trustedKeys", configured? values "keys/trusted"),
      ("leader/enable", leads), ("leader/stratum", stratum),
      ("leader/source", textOpt values "master/source")]) := by
    refine refersOnly_assemble ?_
    simp [given_some_iff, given_textOpt h, given_configured? h, *]
  have hdata := hdata.insert (Field.refersOnly_items_iff.mpr hservers) "server"
  dsimp only
  split
  · exact .pure hdata
  · exact .pure (hdata.set (Field.refersOnly_items_iff.mpr hkeys) _)

theorem yields_bfdColor {color : FieldMap} (h : color.RefersOnly S) :
    Yields (FieldMap.RefersOnly S) (bfdColor color) := by
  rw [bfdColor]
  refine (yields_required h _).bind fun name hname => ?_
  refine (yields_intOr h _ _).bind fun hello hhello => ?_
  refine (yields_intOr h _ _).bind fun multiplier hmultiplier => ?_
  refine (yields_boolOr h _ _).bind fun discovery hdiscovery => ?_
  refine (yields_intOr h _ _).bind fun dscp hdscp => ?_
  refine .pure (refersOnly_assemble ?_)
  simp [given_some_iff, *]

theorem yields_bfd (h : values.RefersOnly S) : Yields (FieldMap.RefersOnly S) (bfd values) := by
  rw [bfd]
  refine (yields_intOr h _ _).bind fun multiplier hmultiplier => ?_
  refine (yields_intOr h _ _).bind fun poll hpoll => ?_
  refine (yields_intOr h _ _).bind fun dscp hdscp => ?_
  refine (Yields.mapM fun color hcolor => yields_bfdColor (h.items color hcolor)).bind
    fun colors hcolors => ?_
  refine .pure (refersOnly_withItems (refersOnly_assemble ?_) hcolors _)
  simp [given_some_iff, *]

theorem yields_omp (h : values.RefersOnly S) : Yields (FieldMap.RefersOnly S) (omp values) := by
  rw [omp]
  refine (yields_boolOr h _ _).bind fun graceful hgraceful => ?_
  refine (yields_intOr h _ _).bind fun timer htimer => ?_
  refine (yields_intOr h _ _).bind fun paths hpaths => ?_
  refine (yields_intOr h _ _).bind fun ecmp hecmp => ?_
  refine (yields_boolOr h _ _).bind fun shutdown hshutdown => ?_
  refine (yields_intOr h _ _).bind fun interval hinterval => ?_
  refine (Yields.any _).bind fun advertised _ => ?_
  refine .pure (refersOnly_assemble (List.forall_mem_append.mpr ⟨?_, ?_⟩))
  · simp [given_some_iff, *]
  · -- The flags of the protocols are literals
    refine List.forall_mem_map.mpr fun protocol _ => given_some_iff.mpr ?_
    exact TypedValue.refersOnly_fixed _

/-! ## VPNs and interfaces -/

/-- The mark on the name of a variable keeps it from being read as an identifier. -/
theorem yields_addressAndMask (field : String) (part : AddressPart) {v : TypedValue}
    (h : v.RefersOnly S) :
    Yields (fun made => made.1.RefersOnly S ∧ made.2.RefersOnly S)
      (addressAndMask field part v) := by
  unfold addressAndMask
  split
  · exact .ok ⟨TypedValue.refersOnly_fixed _, TypedValue.refersOnly_fixed _⟩
  · exact .error _
  · -- A variable stands for the address, and one with the mark for the mask
    rename_i name
    refine .ok ⟨h, fun id hid => ?_⟩
    have hmarked : Uuid.ofText? (name ++ "_mask") = some id := hid
    rw [Uuid.ofText?_append_mask] at hmarked
    cases hmarked
  · exact .error _

theorem yields_withNameServer {data dns : FieldMap} (hdata : data.RefersOnly S)
    (h : dns.RefersOnly S) : Yields (FieldMap.RefersOnly S) (withNameServer data dns) := by
  rw [withNameServer]
  exact (yields_required h _).bind fun address haddress =>
    .pure (refersOnly_put hdata (refersOnly_toText haddress) _)

theorem yields_nextHop {hop : FieldMap} (h : hop.RefersOnly S) :
    Yields (FieldMap.RefersOnly S) (nextHop hop) := by
  rw [nextHop]
  refine (yields_textRequired h _).bind fun address haddress => ?_
  refine (yields_intOr h _ _).bind fun distance hdistance => ?_
  refine .pure (refersOnly_assemble ?_)
  simp [given_some_iff, *]

theorem yields_staticRoute {route : FieldMap} (h : route.RefersOnly S) :
    Yields (FieldMap.RefersOnly S) (staticRoute route) := by
  rw [staticRoute]
  refine (yields_required h _).bind fun pfx hpfx => ?_
  refine (yields_addressAndMask _ _ hpfx).bind fun made hmade => ?_
  obtain ⟨address, mask⟩ := made
  have hdata : FieldMap.RefersOnly S
      (assemble [("prefix/address", some address), ("prefix/mask", some mask)]) := by
    refine refersOnly_assemble ?_
    simp [given_some_iff, hmade.1, hmade.2]
  dsimp only
  split
  · refine (Yields.mapM fun hop hhop => yields_nextHop (h.items hop hhop)).bind
      fun hops hhops => ?_
    exact .pure (hdata.set (Field.refersOnly_items_iff.mpr hhops) _)
  · split
    · exact (yields_boolOr h _ _).bind fun null hnull => .pure (refersOnly_put hdata hnull _)
    · exact .error _

theorem yields_vpn (h : values.RefersOnly S) :
    Yields (fun made => made.2.RefersOnly S) (vpn values) := by
  rw [vpn]
  refine (yields_intRequired h _).bind fun id hid => ?_
  refine (Yields.any _).bind fun type _ => ?_
  have hdata : FieldMap.RefersOnly S
      (assemble [("vpnId", some id), ("name", textOpt values "name")]) := by
    refine refersOnly_assemble ?_
    simp [given_some_iff, given_textOpt h, hid]
  refine (Yields.foldlM (fun dns hdns data hdata =>
    yields_withNameServer hdata (h.items dns hdns)) hdata).bind fun data hdata => ?_
  refine (Yields.mapM fun route hroute => yields_staticRoute (h.items route hroute)).bind
    fun routes hroutes => ?_
  exact .pure (refersOnly_withItems hdata hroutes _)

theorem yields_interfaceAddress (h : values.RefersOnly S) :
    Yields (fun entries => ∀ e ∈ entries, Given S e.2) (interfaceAddress values) := by
  rw [interfaceAddress]
  refine (Yields.any _).bind fun dynamic _ => ?_
  split
  · refine (yields_intOr h _ _).bind fun distance hdistance => .pure ?_
    simp [given_some_iff, hdistance]
  · split
    · rename_i v hv
      refine (yields_addressAndMask _ _ (given_configured? h _ v hv)).bind fun made hmade => ?_
      obtain ⟨address, mask⟩ := made
      refine .pure ?_
      simp [given_some_iff, hmade.1, hmade.2]
    · exact .pure (List.forall_mem_nil _)

theorem yields_interfaceTunnel (h : values.RefersOnly S) :
    Yields (fun entries => ∀ e ∈ entries, Given S e.2) (interfaceTunnel values) := by
  have hflag : ∀ b, (TypedValue.bool b).RefersOnly S := fun b => TypedValue.refersOnly_fixed _
  rw [interfaceTunnel]
  split
  · refine (yields_boolOr h _ _).bind fun nat hnat => .pure ?_
    simp [given_some_iff, given_textOr h, hflag, hnat]
  · refine .pure ?_
    simp [given_some_iff, hflag]

theorem yields_ethernet (h : values.RefersOnly S) :
    Yields (FieldMap.RefersOnly S) (ethernet values) := by
  rw [ethernet]
  refine (yields_textRequired h _).bind fun name hname => ?_
  refine (yields_boolOr h _ _).bind fun shutdown hshutdown => ?_
  refine (yields_intOr h _ _).bind fun mtu hmtu => ?_
  refine (yields_interfaceAddress h).bind fun address haddress => ?_
  refine (yields_interfaceTunnel h).bind fun tunnel htunnel => ?_
  refine .pure (refersOnly_assemble (List.forall_mem_append.mpr
    ⟨List.forall_mem_append.mpr ⟨?_, haddress⟩, htunnel⟩))
  simp [given_some_iff, given_textOpt h, hname, hshutdown, hmtu]

/-! ## Policy lists -/

theorem refersOnly_textItem (name s : String) : FieldMap.RefersOnly S (textItem name s) :=
  FieldMap.refersOnly_cons_iff.mpr ⟨Field.refersOnly_value_iff.mpr
    (TypedValue.refersOnly_fixed _), FieldMap.refersOnly_nil⟩

/-- The values of an entry are literals. -/
theorem yields_listEntry (type : ParcelType) (entry : FieldMap) :
    Yields (FieldMap.RefersOnly S) (listEntry type entry) := by
  have hpair : ∀ (first second : String) (v w : Literal), FieldMap.RefersOnly S
      (assemble [(first, some (.fixed v)), (second, some (.fixed w))]) := by
    intro first second v w
    refine refersOnly_assemble ?_
    simp [given_some_iff, TypedValue.refersOnly_fixed]
  unfold listEntry
  split
  · exact (Yields.any _).bind fun made _ => .pure (hpair _ _ _ _)
  · exact (Yields.any _).bind fun made _ => .pure (hpair _ _ _ _)
  · exact (Yields.any _).map fun s _ => refersOnly_textItem _ s
  · exact (Yields.any _).map fun s _ => refersOnly_textItem _ s
  · exact (Yields.any _).map fun s _ => refersOnly_textItem _ s
  · exact (Yields.any _).map fun s _ => refersOnly_textItem _ s
  · split
    · exact (Yields.any _).map fun s _ => refersOnly_textItem _ s
    · exact (Yields.any _).map fun s _ => refersOnly_textItem _ s
  · exact .error _

theorem yields_listData (type : ParcelType) (entries : List FieldMap) :
    Yields (FieldMap.RefersOnly S) (listData type entries) := by
  have hone : ∀ (name : String) {f : Field}, f.RefersOnly S →
      FieldMap.RefersOnly S [(name, f)] := fun name f hf =>
    FieldMap.refersOnly_cons_iff.mpr ⟨hf, FieldMap.refersOnly_nil⟩
  rw [listData]
  split
  · refine (Yields.any _).bind fun patterns _ => .pure (hone _ ?_)
    exact Field.refersOnly_value_iff.mpr (TypedValue.refersOnly_fixed _)
  · have hrows : Yields (fun rows => ∀ row ∈ rows, FieldMap.RefersOnly S row)
        (entries.mapM (listEntry type)) :=
      Yields.mapM fun entry _ => yields_listEntry type entry
    exact hrows.bind fun rows hrows => .pure (hone _ (Field.refersOnly_items_iff.mpr hrows))

theorem yields_listTypeOf (values : FieldMap) :
    Yields (· ∈ listTypes.map Prod.snd) (listTypeOf values) := by
  rw [listTypeOf]
  split
  · exact .error _
  · split
    · rename_i type htype
      refine .ok ?_
      rw [listType?] at htype
      obtain ⟨before, after, hsplit, -⟩ := List.lookup_eq_some_iff.mp htype
      rw [hsplit]
      simp
    · exact .error _

/-- A policy list becomes a parcel of a list type, which refers to nothing. -/
theorem yields_policyList (values : FieldMap) :
    Yields (fun made => made.1 ∈ listTypes.map Prod.snd ∧ made.2.RefersOnly fun _ => False)
      (policyList values) := by
  rw [policyList]
  refine (yields_listTypeOf values).bind fun type htype => ?_
  dsimp only
  split
  · exact .error _
  · exact (yields_listData type _).bind fun data hdata => .pure ⟨htype, hdata⟩

/-! ## Templates that refer to other objects -/

section Routing

variable {ctx : Context}

theorem yields_withRoutePolicy (hS : ResolvesTo S ctx .policyDefinition)
    (slots : PolicySlots) {data : FieldMap} (hdata : data.RefersOnly S) (policy : FieldMap) :
    Yields (FieldMap.RefersOnly S) (withRoutePolicy ctx slots data policy) := by
  rw [withRoutePolicy]
  refine (Yields.any _).bind fun origin _ => ?_
  refine (Yields.any _).bind fun direction _ => ?_
  refine (Yields.any _).bind fun slot _ => ?_
  split
  · exact .error _
  · exact (yields_reference hS origin).bind fun f hf => .pure (hdata.set hf slot)

theorem yields_withRoutePolicies (hS : ResolvesTo S ctx .policyDefinition)
    (slots : PolicySlots) (values : FieldMap) {data : FieldMap} (hdata : data.RefersOnly S) :
    Yields (FieldMap.RefersOnly S) (withRoutePolicies ctx slots values data) :=
  Yields.foldlM (fun policy _ _ hdata => yields_withRoutePolicy hS slots hdata policy) hdata

theorem yields_addressFamily (hS : ResolvesTo S ctx .policyDefinition)
    {family : FieldMap} (h : family.RefersOnly S) :
    Yields (FieldMap.RefersOnly S) (addressFamily ctx family) := by
  rw [addressFamily]
  refine (yields_required h _).bind fun type htype => ?_
  refine yields_withRoutePolicies hS _ _ (refersOnly_assemble ?_)
  simp [given_some_iff, htype]

theorem yields_neighbor (hS : ResolvesTo S ctx .policyDefinition)
    (h : values.RefersOnly S) : Yields (FieldMap.RefersOnly S) (neighbor ctx values) := by
  rw [neighbor]
  refine (yields_textRequired h _).bind fun address haddress => ?_
  refine (yields_intRequired h _).bind fun remote hremote => ?_
  refine (yields_boolOr h _ _).bind fun shutdown hshutdown => ?_
  refine (yields_boolOr h _ _).bind fun communities hcommunities => ?_
  refine (Yields.mapM fun family hfamily =>
    yields_addressFamily hS (h.items family hfamily)).bind fun rows hrows => ?_
  refine .pure (refersOnly_withItems (refersOnly_assemble ?_) hrows _)
  simp [given_some_iff, given_textOpt h, *]

theorem yields_bgp (hS : ResolvesTo S ctx .policyDefinition)
    (h : values.RefersOnly S) : Yields (FieldMap.RefersOnly S) (bgp ctx values) := by
  rw [bgp]
  refine (yields_intRequired h _).bind fun number hnumber => ?_
  refine (Yields.mapM fun row hrow => yields_neighbor hS (h.items row hrow)).bind
    fun neighbors hneighbors => ?_
  refine .pure (refersOnly_withItems (refersOnly_assemble ?_) hneighbors _)
  simp [given_some_iff, given_textOpt h, hnumber]

theorem yields_areaInterface (h : values.RefersOnly S) :
    Yields (FieldMap.RefersOnly S) (areaInterface values) := by
  rw [areaInterface]
  refine (yields_textRequired h _).bind fun name hname => ?_
  refine (yields_intOr h _ _).bind fun hello hhello => ?_
  refine (yields_intOpt h _).bind fun cost hcost => ?_
  refine .pure (refersOnly_assemble ?_)
  simp [given_some_iff, *]

theorem yields_area (h : values.RefersOnly S) : Yields (FieldMap.RefersOnly S) (area values) := by
  rw [area]
  refine (yields_intRequired h _).bind fun number hnumber => ?_
  refine (Yields.mapM fun row hrow => yields_areaInterface (h.items row hrow)).bind
    fun interfaces hinterfaces => ?_
  have hdata : FieldMap.RefersOnly S (assemble [("aNum", some number)]) := by
    refine refersOnly_assemble ?_
    simp [given_some_iff, hnumber]
  exact .pure (hdata.insert (Field.refersOnly_items_iff.mpr hinterfaces) _)

theorem yields_ospf (hS : ResolvesTo S ctx .policyDefinition)
    (h : values.RefersOnly S) : Yields (FieldMap.RefersOnly S) (ospf ctx values) := by
  have hgroup := h.group?_getD "ospf"
  rw [ospf]
  generalize (values.group? "ospf").getD [] = group at hgroup
  refine (yields_intOr hgroup _ _).bind fun external hexternal => ?_
  refine (yields_intOr hgroup _ _).bind fun inter hinter => ?_
  refine (yields_intOr hgroup _ _).bind fun intra hintra => ?_
  refine (Yields.mapM fun row hrow => yields_area (hgroup.items row hrow)).bind
    fun areas hareas => ?_
  refine yields_withRoutePolicies hS _ _ (refersOnly_withItems (refersOnly_assemble ?_) hareas _)
  simp [given_some_iff, given_textOpt hgroup, *]

theorem yields_withMatch (hS : ResolvesTo S ctx .policyList)
    {data entry : FieldMap} (hdata : data.RefersOnly S) (h : entry.RefersOnly S) :
    Yields (FieldMap.RefersOnly S) (withMatch ctx data entry) := by
  rw [withMatch]
  refine (Yields.any _).bind fun field _ => ?_
  cases listSlot? field with
  | some slot =>
    refine (Yields.any _).bind fun origin _ => ?_
    exact (yields_reference hS origin).bind fun f hf => .pure (hdata.set hf slot)
  | none =>
    dsimp only
    split
    · exact (yields_intRequired h _).bind fun v hv => .pure (refersOnly_put hdata hv _)
    · exact .error _

theorem yields_withParameter {data parameter : FieldMap} (hdata : data.RefersOnly S)
    (h : parameter.RefersOnly S) :
    Yields (FieldMap.RefersOnly S) (withParameter data parameter) := by
  rw [withParameter]
  refine (Yields.any _).bind fun field _ => ?_
  split
  · exact (yields_intRequired h _).bind fun v hv => .pure (refersOnly_put hdata hv _)
  · split
    · exact (yields_textRequired h _).bind fun v hv => .pure (refersOnly_put hdata hv _)
    · exact .error _

theorem yields_withAction {data action : FieldMap} (hdata : data.RefersOnly S)
    (h : action.RefersOnly S) : Yields (FieldMap.RefersOnly S) (withAction data action) := by
  rw [withAction]
  refine (Yields.any _).bind fun type _ => ?_
  split
  · exact Yields.foldlM (fun parameter hparameter data hdata =>
      yields_withParameter hdata (h.items parameter hparameter)) hdata
  · exact .error _

theorem refersOnly_withSingle {data row : FieldMap} (hdata : data.RefersOnly S)
    (hrow : row.RefersOnly S) (name : String) : (withSingle data name row).RefersOnly S := by
  refine refersOnly_withItems hdata ?_ name
  split
  · exact fun _ hrow => absurd hrow List.not_mem_nil
  · exact List.forall_mem_singleton.mpr hrow

theorem yields_policySequence (hS : ResolvesTo S ctx .policyList)
    (h : values.RefersOnly S) : Yields (FieldMap.RefersOnly S) (policySequence ctx values) := by
  rw [policySequence]
  refine (yields_intRequired h _).bind fun id hid => ?_
  refine (Yields.foldlM (fun entry hentry data hdata =>
    yields_withMatch hS hdata (h.items entry hentry)) FieldMap.refersOnly_nil).bind
    fun entries hentries => ?_
  refine (Yields.foldlM (fun action haction data hdata =>
    yields_withAction hdata (h.items action haction)) FieldMap.refersOnly_nil).bind
    fun sets hsets => ?_
  have hprotocol : (TypedValue.text "IPV4").RefersOnly S := TypedValue.refersOnly_fixed _
  refine .pure (refersOnly_withSingle (refersOnly_withSingle (refersOnly_assemble ?_)
    hentries _) hsets _)
  simp [given_some_iff, given_textOpt h, given_textOr h, hid, hprotocol]

theorem yields_routePolicy (hS : ResolvesTo S ctx .policyList)
    (h : values.RefersOnly S) : Yields (FieldMap.RefersOnly S) (routePolicy ctx values) := by
  rw [routePolicy]
  refine (Yields.mapM fun row hrow => yields_policySequence hS (h.items row hrow)).bind
    fun sequences hsequences => ?_
  have hdata : FieldMap.RefersOnly S
      (assemble [("defaultAction", some (textOr values "defaultAction/type" "reject"))]) := by
    refine refersOnly_assemble ?_
    simp [given_textOr h]
  exact .pure (hdata.insert (Field.refersOnly_items_iff.mpr hsequences) _)

end Routing

end ProfileMigration.Template

namespace ProfileMigration

/-! ## Targets of parcels -/

/-- The family of the objects that parcels of a type refer to. -/
def ParcelType.target? : ParcelType → Option Category
  | bgp | ospf => some .policyDefinition
  | routePolicy => some .policyList
  | _ => none

/-- The identifiers that a context gives for what parcels of a type may refer to. -/
def Targeted (ctx : Context) (type : ParcelType) (id : Uuid) : Prop :=
  ∃ category origin, type.target? = some category ∧ ctx.resolve category origin = some id

namespace Template

variable {S : Uuid → Prop}

theorem resolvesTo_targeted (ctx : Context) {type : ParcelType} {category : Category}
    (h : type.target? = some category) :
    ResolvesTo (fun id => Targeted ctx type id ∨ S id) ctx category :=
  fun origin _ hid => .inl ⟨category, origin, h, hid⟩

theorem target?_of_mem_listTypes {type : ParcelType} (h : type ∈ listTypes.map Prod.snd) :
    type.target? = none := by
  have hall : ∀ t ∈ listTypes.map Prod.snd, t.target? = none := by decide
  exact hall type h

/-- What a template makes of a definition refers to targets of its type, and to what the
    definition refers to. -/
theorem yields_content : ∀ t ∈ all, ∀ ctx values, values.RefersOnly S →
    Yields (fun made => made.2.RefersOnly fun id => Targeted ctx made.1 id ∨ S id)
      (t.content ctx values) := by
  -- Most templates make parcels of one type, from the definition alone
  have hplain : ∀ (type : ParcelType) {f : FieldMap → Converted FieldMap},
      (∀ {S values}, FieldMap.RefersOnly S values → Yields (FieldMap.RefersOnly S) (f values)) →
      ∀ (ctx : Context) values, FieldMap.RefersOnly S values →
        Yields (fun made : ParcelType × FieldMap =>
          made.2.RefersOnly fun id => Targeted ctx made.1 id ∨ S id)
          ((f values).map (type, ·)) := by
    intro type f hf ctx values h
    have hvalues : values.RefersOnly fun id => Targeted ctx type id ∨ S id := h.mono fun _ => .inr
    exact (hf hvalues).map fun data hdata => hdata
  -- Some resolve origins of one family in the context as well
  have hreferring : ∀ (type : ParcelType) {category : Category}
      {f : Context → FieldMap → Converted FieldMap}, type.target? = some category →
      (∀ {S values ctx}, ResolvesTo S ctx category →
        FieldMap.RefersOnly S values → Yields (FieldMap.RefersOnly S) (f ctx values)) →
      ∀ (ctx : Context) values, FieldMap.RefersOnly S values →
        Yields (fun made : ParcelType × FieldMap =>
          made.2.RefersOnly fun id => Targeted ctx made.1 id ∨ S id)
          ((f ctx values).map (type, ·)) := by
    intro type category f htype hf ctx values h
    have hvalues : values.RefersOnly fun id => Targeted ctx type id ∨ S id := h.mono fun _ => .inr
    exact (hf (resolvesTo_targeted ctx htype) hvalues).map fun data hdata => hdata
  simp only [all, List.forall_mem_cons]
  refine ⟨?basic, ?banner, ?logging, ?ntp, ?bfd, ?omp, ?vpn, ?ethernet, ?bgp, ?ospf, ?policy,
    ?list, by simp⟩
  case basic => exact hplain .basic yields_basic
  case banner => exact hplain .banner yields_banner
  case logging => exact hplain .logging yields_logging
  case ntp => exact hplain .ntp yields_ntp
  case bfd => exact hplain .bfd yields_bfd
  case omp => exact hplain .omp yields_omp
  case ethernet => exact hplain .ethernet yields_ethernet
  case vpn =>
    intro ctx values h
    exact (yields_vpn h).mono fun made hmade => hmade.mono fun _ => .inr
  case bgp => exact hreferring .bgp rfl yields_bgp
  case ospf => exact hreferring .ospf rfl yields_ospf
  case policy => exact hreferring .routePolicy rfl yields_routePolicy
  case list =>
    intro ctx values _
    exact (yields_policyList values).mono fun made hmade => hmade.2.mono fun _ => False.elim

end Template

end ProfileMigration
