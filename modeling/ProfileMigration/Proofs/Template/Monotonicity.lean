/-
  ProfileMigration.Proofs.Template.Monotonicity

  How the conversion of an object answers to a growing context:

    Candid                  -- an object reported as not converted yet is not in the context
    candid_coerceWith, …    -- reading the definition never reports one
    candid_reference        -- the lookup of a reference is the one place that does
    candid_content          -- every template is candid
    convert_mono            -- what is made stays as it is, what fails for good fails the same
                               way, and only an object that is missing is waited for

  Steadiness says what a wider context leaves as it was. What it leaves open is whether an object
  that waits has a reason to: this is what candour adds.
-/
import ProfileMigration.Proofs.Plan.FixedPoint
import ProfileMigration.Proofs.Template.Reading

namespace ProfileMigration

/-- An object that a conversion reports as not converted yet is not in the context. -/
def Candid {α : Type} (ctx : Context) (x : Converted α) : Prop :=
  ∀ category origin, x = .error (.unresolved category origin) →
    ctx.resolve category origin = none

namespace Candid

variable {α β : Type} {ctx : Context}

theorem ok (a : α) : Candid ctx (.ok a) := nofun

theorem pure (a : α) : Candid ctx (Pure.pure a) := nofun

/-- A failure that another object cannot help is no report of a missing one. -/
theorem error {e : ConversionError} (h : e.deferred = false) :
    Candid ctx (.error e : Converted α) := by
  intro category origin he
  obtain rfl := Except.error.inj he
  cases h

theorem bind {x : Converted α} {f : α → Converted β} (hx : Candid ctx x)
    (hf : ∀ a, Candid ctx (f a)) : Candid ctx (x >>= f) := by
  intro category origin h
  cases hxa : x with
  | ok a =>
    rw [hxa] at h
    exact hf a category origin h
  | error e =>
    -- The rest was not reached, so the report is of the first part
    rw [hxa] at h
    have he : e = .unresolved category origin := Except.error.inj h
    exact hx category origin (by rw [hxa, he])

theorem map {x : Converted α} (f : α → β) (hx : Candid ctx x) : Candid ctx (x.map f) := by
  intro category origin h
  cases hxa : x with
  | ok a =>
    rw [hxa] at h
    cases h
  | error e =>
    rw [hxa] at h
    have he : e = .unresolved category origin := Except.error.inj h
    exact hx category origin (by rw [hxa, he])

theorem mapM {f : α → Converted β} (hf : ∀ a, Candid ctx (f a)) (l : List α) :
    Candid ctx (l.mapM f) := by
  induction l with
  | nil =>
    rw [List.mapM_nil]
    exact pure _
  | cons a rest ih =>
    rw [List.mapM_cons]
    exact (hf a).bind fun b => ih.bind fun bs => pure _

theorem foldlM {f : β → α → Converted β} (hf : ∀ b a, Candid ctx (f b a)) (l : List α) (b : β) :
    Candid ctx (l.foldlM f b) := by
  induction l generalizing b with
  | nil =>
    rw [List.foldlM_nil]
    exact pure _
  | cons a rest ih =>
    rw [List.foldlM_cons]
    exact (hf b a).bind fun b' => ih b'

end Candid

namespace Template

variable {ctx : Context}

/-! ## Reading fields -/

theorem candid_coerceWith {read : Literal → Converted Literal} (h : ∀ l, Candid ctx (read l))
    (v : TypedValue) : Candid ctx (coerceWith read v) := by
  unfold coerceWith
  split
  · exact (h _).map _
  · exact (h _).map _
  · exact .ok _
  · exact .ok _

theorem candid_toBool (field : String) (v : TypedValue) : Candid ctx (toBool field v) := by
  refine candid_coerceWith (fun l => ?_) v
  split
  · exact .ok _
  · exact .error rfl

theorem candid_toInt (field : String) (v : TypedValue) : Candid ctx (toInt field v) := by
  refine candid_coerceWith (fun l => ?_) v
  split
  · exact .ok _
  · exact .error rfl

variable (values : FieldMap) (path : String)

theorem candid_required : Candid ctx (required values path) := by
  rw [required]
  split
  · exact .ok _
  · exact .error rfl

theorem candid_intOpt : Candid ctx (intOpt values path) := by
  rw [intOpt]
  split
  · exact (candid_toInt path _).map _
  · exact .ok _

theorem candid_intOr (default : Int64) : Candid ctx (intOr values path default) :=
  candid_toInt path _

theorem candid_intRequired : Candid ctx (intRequired values path) :=
  (candid_required values path).bind (candid_toInt path)

theorem candid_boolOr (default : Bool) : Candid ctx (boolOr values path default) :=
  candid_toBool path _

theorem candid_textRequired : Candid ctx (textRequired values path) :=
  (candid_required values path).map _

theorem candid_fixedText? : Candid ctx (fixedText? values path) := by
  rw [fixedText?]
  split
  · exact .ok _
  · exact .ok _
  · exact .ok _
  · exact .error rfl

theorem candid_fixedText (reported : String) : Candid ctx (fixedText values path reported) := by
  rw [fixedText]
  refine (candid_fixedText? values path).bind fun s? => ?_
  split
  · exact .ok _
  · exact .error rfl

/-- The lookup of a reference fails only for what the context does not have. -/
theorem candid_reference (category : Category) (origin : String) :
    Candid ctx (reference ctx category origin) := by
  rw [reference]
  cases hid : ctx.resolve category origin with
  | some id => exact .ok _
  | none =>
    -- What is reported is the pair that was looked up
    intro category' origin' h
    injection h with h
    injection h with hcategory horigin
    rw [← hcategory, ← horigin]
    exact hid

/-! ## The system profile -/

variable {values : FieldMap}

theorem candid_basic : Candid ctx (basic values) := by
  rw [basic]
  exact (candid_intOpt _ _).bind fun _ => (candid_boolOr _ _ _).bind fun _ =>
    (candid_boolOr _ _ _).bind fun _ => (candid_boolOr _ _ _).bind fun _ => .pure _

theorem candid_logServer (server : FieldMap) : Candid ctx (logServer server) := by
  rw [logServer]
  exact (candid_textRequired _ _).bind fun _ => (candid_intOr _ _ _).bind fun _ =>
    (candid_boolOr _ _ _).bind fun _ => .pure _

theorem candid_logging : Candid ctx (logging values) := by
  rw [logging]
  exact (candid_boolOr _ _ _).bind fun _ => (candid_intOr _ _ _).bind fun _ =>
    (candid_intOr _ _ _).bind fun _ => (Candid.mapM candid_logServer _).bind fun _ => .pure _

theorem candid_timeServer (server : FieldMap) : Candid ctx (timeServer server) := by
  rw [timeServer]
  exact (candid_textRequired _ _).bind fun _ => (candid_intOr _ _ _).bind fun _ =>
    (candid_intOr _ _ _).bind fun _ => (candid_intOpt _ _).bind fun _ =>
    (candid_boolOr _ _ _).bind fun _ => .pure _

theorem candid_timeKey (key : FieldMap) : Candid ctx (timeKey key) := by
  rw [timeKey]
  exact (candid_intRequired _ _).bind fun _ => (candid_textRequired _ _).bind fun _ => .pure _

theorem candid_ntp : Candid ctx (ntp values) := by
  rw [ntp]
  exact (Candid.mapM candid_timeServer _).bind fun _ => (Candid.mapM candid_timeKey _).bind fun _ =>
    (candid_boolOr _ _ _).bind fun _ => (candid_intOpt _ _).bind fun _ => .pure _

theorem candid_bfdColor (color : FieldMap) : Candid ctx (bfdColor color) := by
  rw [bfdColor]
  exact (candid_required _ _).bind fun _ => (candid_intOr _ _ _).bind fun _ =>
    (candid_intOr _ _ _).bind fun _ => (candid_boolOr _ _ _).bind fun _ =>
    (candid_intOr _ _ _).bind fun _ => .pure _

theorem candid_bfd : Candid ctx (bfd values) := by
  rw [bfd]
  exact (candid_intOr _ _ _).bind fun _ => (candid_intOr _ _ _).bind fun _ =>
    (candid_intOr _ _ _).bind fun _ => (Candid.mapM candid_bfdColor _).bind fun _ => .pure _

theorem candid_advertisedProtocol (entry : FieldMap) : Candid ctx (advertisedProtocol entry) := by
  rw [advertisedProtocol]
  refine (candid_fixedText _ _ _).bind fun protocol => ?_
  split
  · exact .ok _
  · exact .error rfl

theorem candid_omp : Candid ctx (omp values) := by
  rw [omp]
  exact (candid_boolOr _ _ _).bind fun _ => (candid_intOr _ _ _).bind fun _ =>
    (candid_intOr _ _ _).bind fun _ => (candid_intOr _ _ _).bind fun _ =>
    (candid_boolOr _ _ _).bind fun _ => (candid_intOr _ _ _).bind fun _ =>
    (Candid.mapM candid_advertisedProtocol _).bind fun _ => .pure _

/-! ## VPNs and interfaces -/

theorem candid_addressAndMask (field : String) (part : AddressPart) (v : TypedValue) :
    Candid ctx (addressAndMask field part v) := by
  unfold addressAndMask
  split
  · exact .ok _
  · exact .error rfl
  · exact .ok _
  · exact .error rfl

theorem candid_withNameServer (data dns : FieldMap) : Candid ctx (withNameServer data dns) := by
  rw [withNameServer]
  exact (candid_required _ _).bind fun _ => .pure _

theorem candid_nextHop (hop : FieldMap) : Candid ctx (nextHop hop) := by
  rw [nextHop]
  exact (candid_textRequired _ _).bind fun _ => (candid_intOr _ _ _).bind fun _ => .pure _

theorem candid_staticRoute (route : FieldMap) : Candid ctx (staticRoute route) := by
  rw [staticRoute]
  refine (candid_required _ _).bind fun _ => (candid_addressAndMask _ _ _).bind fun masked => ?_
  dsimp only
  split
  · exact (Candid.mapM candid_nextHop _).bind fun _ => .pure _
  · split
    · exact (candid_boolOr _ _ _).bind fun _ => .pure _
    · exact .error rfl

theorem candid_vpn : Candid ctx (vpn values) := by
  rw [vpn]
  refine (candid_intRequired _ _).bind fun id => Candid.bind ?_ fun type => ?_
  · unfold vpnType
    split
    · exact .ok _
    · exact .error rfl
  · exact (Candid.foldlM candid_withNameServer _ _).bind fun _ =>
      (Candid.mapM candid_staticRoute _).bind fun _ => .pure _

theorem candid_interfaceAddress : Candid ctx (interfaceAddress values) := by
  rw [interfaceAddress]
  refine (candid_boolOr _ _ _).bind fun dynamic => ?_
  split
  · exact (candid_intOr _ _ _).bind fun _ => .pure _
  · split
    · exact (candid_addressAndMask _ _ _).bind fun _ => .pure _
    · exact .pure _

theorem candid_interfaceTunnel : Candid ctx (interfaceTunnel values) := by
  rw [interfaceTunnel]
  split
  · exact (candid_boolOr _ _ _).bind fun _ => .pure _
  · exact .pure _

theorem candid_ethernet : Candid ctx (ethernet values) := by
  rw [ethernet]
  exact (candid_textRequired _ _).bind fun _ => (candid_boolOr _ _ _).bind fun _ =>
    (candid_intOr _ _ _).bind fun _ => candid_interfaceAddress.bind fun _ =>
    candid_interfaceTunnel.bind fun _ => .pure _

/-! ## Policy lists -/

theorem candid_entryText (entry : FieldMap) (field : String) :
    Candid ctx (entryText entry field) := by
  rw [entryText]
  refine (candid_required _ _).bind fun v => ?_
  split
  · exact .ok _
  · exact .error rfl

theorem candid_prefixEntry (entry : FieldMap) (field : String) (newer : Bool) :
    Candid ctx (prefixEntry entry field newer) := by
  rw [prefixEntry]
  refine Candid.bind ?_ fun network => ?_
  · rw [entryNetwork]
    refine (candid_required _ _).bind fun v => ?_
    split
    · exact .ok _
    · exact .ok _
    · exact .error rfl
  · split
    · exact .ok _
    · exact .error rfl

theorem candid_checkedText (entry : FieldMap) (field : String) (valid : String → Bool)
    (complaint : String → String) : Candid ctx (checkedText entry field valid complaint) := by
  rw [checkedText]
  refine (candid_entryText _ _).bind fun s => ?_
  split
  · exact .ok _
  · exact .error rfl

theorem candid_listEntry (type : ParcelType) (entry : FieldMap) :
    Candid ctx (listEntry type entry) := by
  unfold listEntry
  split
  · exact (candid_prefixEntry _ _ _).bind fun _ => .pure _
  · exact (candid_prefixEntry _ _ _).bind fun _ => .pure _
  · exact (candid_entryText _ _).map _
  · exact (candid_checkedText _ _ _ _).map _
  · exact (candid_checkedText _ _ _ _).map _
  · exact (candid_checkedText _ _ _ _).map _
  · split
    · exact (candid_entryText _ _).map _
    · exact (candid_entryText _ _).map _
  · exact .error rfl

theorem candid_listTypeOf : Candid ctx (listTypeOf values) := by
  rw [listTypeOf]
  split
  · exact .error rfl
  · split
    · exact .ok _
    · exact .error rfl

theorem candid_listData (type : ParcelType) (entries : List FieldMap) :
    Candid ctx (listData type entries) := by
  rw [listData]
  split
  · exact (Candid.mapM (fun entry => candid_entryText entry _) _).bind fun _ => .pure _
  · exact (Candid.mapM (candid_listEntry type) _).bind fun _ => .pure _

theorem candid_policyList : Candid ctx (policyList values) := by
  rw [policyList]
  refine candid_listTypeOf.bind fun type => ?_
  dsimp only
  split
  · exact .error rfl
  · exact (candid_listData type _).bind fun _ => .pure _

/-! ## Routing -/

theorem candid_slot (slots : PolicySlots) (direction : Option String) :
    Candid ctx (slots.slot direction) := by
  unfold PolicySlots.slot
  split
  · exact .ok _
  · split
    · exact .ok _
    · split
      · split
        · exact .ok _
        · exact .error rfl
      · exact .error rfl

theorem candid_withRoutePolicy (slots : PolicySlots) (data policy : FieldMap) :
    Candid ctx (withRoutePolicy ctx slots data policy) := by
  rw [withRoutePolicy]
  refine (candid_fixedText _ _ _).bind fun origin => (candid_fixedText? _ _).bind fun direction =>
    (candid_slot slots direction).bind fun slot => ?_
  split
  · exact .error rfl
  · exact (candid_reference _ _).bind fun _ => .pure _

theorem candid_withRoutePolicies (slots : PolicySlots) (values data : FieldMap) :
    Candid ctx (withRoutePolicies ctx slots values data) :=
  Candid.foldlM (candid_withRoutePolicy slots) _ _

theorem candid_addressFamily (family : FieldMap) : Candid ctx (addressFamily ctx family) := by
  rw [addressFamily]
  exact (candid_required _ _).bind fun _ => candid_withRoutePolicies _ _ _

theorem candid_neighbor (values : FieldMap) : Candid ctx (neighbor ctx values) := by
  rw [neighbor]
  exact (candid_textRequired _ _).bind fun _ => (candid_intRequired _ _).bind fun _ =>
    (candid_boolOr _ _ _).bind fun _ => (candid_boolOr _ _ _).bind fun _ =>
    (Candid.mapM candid_addressFamily _).bind fun _ => .pure _

theorem candid_bgp : Candid ctx (bgp ctx values) := by
  rw [bgp]
  exact (candid_intRequired _ _).bind fun _ => (Candid.mapM candid_neighbor _).bind fun _ => .pure _

theorem candid_areaInterface (values : FieldMap) : Candid ctx (areaInterface values) := by
  rw [areaInterface]
  exact (candid_textRequired _ _).bind fun _ => (candid_intOr _ _ _).bind fun _ =>
    (candid_intOpt _ _).bind fun _ => .pure _

theorem candid_area (values : FieldMap) : Candid ctx (area values) := by
  rw [area]
  exact (candid_intRequired _ _).bind fun _ =>
    (Candid.mapM candid_areaInterface _).bind fun _ => .pure _

theorem candid_ospf : Candid ctx (ospf ctx values) := by
  rw [ospf]
  exact (candid_intOr _ _ _).bind fun _ => (candid_intOr _ _ _).bind fun _ =>
    (candid_intOr _ _ _).bind fun _ => (Candid.mapM candid_area _).bind fun _ =>
    candid_withRoutePolicies _ _ _

theorem candid_withMatch (data entry : FieldMap) : Candid ctx (withMatch ctx data entry) := by
  rw [withMatch]
  refine (candid_fixedText _ _ _).bind fun field => ?_
  cases listSlot? field with
  | some slot =>
    exact (candid_fixedText _ _ _).bind fun _ => (candid_reference _ _).bind fun _ => .pure _
  | none =>
    dsimp only
    split
    · exact (candid_intRequired _ _).bind fun _ => .pure _
    · exact .error rfl

theorem candid_withParameter (data parameter : FieldMap) :
    Candid ctx (withParameter data parameter) := by
  rw [withParameter]
  refine (candid_fixedText _ _ _).bind fun field => ?_
  split
  · exact (candid_intRequired _ _).bind fun _ => .pure _
  · split
    · exact (candid_textRequired _ _).bind fun _ => .pure _
    · exact .error rfl

theorem candid_withAction (data action : FieldMap) : Candid ctx (withAction data action) := by
  rw [withAction]
  refine (candid_fixedText _ _ _).bind fun type => ?_
  split
  · exact Candid.foldlM candid_withParameter _ _
  · exact .error rfl

theorem candid_policySequence (values : FieldMap) : Candid ctx (policySequence ctx values) := by
  rw [policySequence]
  exact (candid_intRequired _ _).bind fun _ => (Candid.foldlM candid_withMatch _ _).bind fun _ =>
    (Candid.foldlM candid_withAction _ _).bind fun _ => .pure _

theorem candid_routePolicy : Candid ctx (routePolicy ctx values) := by
  rw [routePolicy]
  exact (Candid.mapM candid_policySequence _).bind fun _ => .pure _

/-! ## Every template -/

/-- Every template reports as missing only what the context does not have. -/
theorem candid_content : ∀ t ∈ all, ∀ ctx values, Candid ctx (t.content ctx values) := by
  simp only [all, List.forall_mem_cons]
  refine ⟨?basic, ?banner, ?logging, ?ntp, ?bfd, ?omp, ?vpn, ?ethernet, ?bgp, ?ospf, ?policy,
    ?list, by simp⟩
  case basic => exact fun _ _ => candid_basic.map _
  case banner => exact fun _ _ => (Candid.pure _).map _
  case logging => exact fun _ _ => candid_logging.map _
  case ntp => exact fun _ _ => candid_ntp.map _
  case bfd => exact fun _ _ => candid_bfd.map _
  case omp => exact fun _ _ => candid_omp.map _
  case vpn => exact fun _ _ => candid_vpn
  case ethernet => exact fun _ _ => candid_ethernet.map _
  case bgp => exact fun _ _ => candid_bgp.map _
  case ospf => exact fun _ _ => candid_ospf.map _
  case policy => exact fun _ _ => candid_routePolicy.map _
  case list => exact fun _ _ => candid_policyList

end Template

/-! ## The conversion of an object -/

/-- An object waits only for one that the context does not have. -/
theorem candid_convert (o : LegacyObject) (id : Uuid) (ctx : Context) :
    Candid ctx (convert o id ctx) := by
  rw [convert]
  cases ht : template? o.kind with
  | none => exact .error rfl
  | some t => exact (Template.candid_content t (template?_mem ht) ctx _).map _

/-- A visit leaves the context as it was, or adds the object that it converted. -/
theorem Sweep.ctx_visit (s : Sweep) (o : LegacyObject) :
    (s.visit o).ctx =
      if (o.outcome s.ctx).isOk then (s.ctx.register o.category o.id).2 else s.ctx := by
  cases hout : o.outcome s.ctx with
  | ok p =>
    rw [visit_of_ok hout]
    rfl
  | error e =>
    -- Whether the object waits or has failed, nothing is registered
    rw [visit_of_error hout]
    cases e.deferred with
    | true => rfl
    | false => rfl

/-- Conversion is monotone in what the context resolves: a parcel stays the same, and so does a
    failure that another object cannot help, while an object that waits does so for one that the
    context has not. Conversion gives no context back; the one around it grows by the object that
    was converted, when it was. -/
theorem convert_mono (o : LegacyObject) (id : Uuid) (c c' : Context)
    (h : ∀ category origin u, c.resolve category origin = some u →
      c'.resolve category origin = some u) :
    (∀ p, convert o id c = .ok p → convert o id c' = .ok p) ∧
    (∀ e, e.deferred = false → convert o id c = .error e → convert o id c' = .error e) ∧
    (∀ category origin, convert o id c = .error (.unresolved category origin) →
      c.resolve category origin = none) ∧
    ∀ s : Sweep, s.ctx = c → (s.visit o).ctx =
      if (convert o (generatedId o.category o.id) c).isOk then
        (c.register o.category o.id).2
      else c := by
  have hwithin : c.Within c' := h
  have hkept : ∀ x, (∀ category origin, x ≠ .error (.unresolved category origin)) →
      convert o id c = x → convert o id c' = x := by
    intro x hx hconvert
    rcases steady_convert o id hwithin with heq | ⟨category, origin, hmissing, -⟩
    · rw [← hconvert]
      exact heq
    · exact absurd (hconvert.symm.trans hmissing) (hx category origin)
  -- A failure that is not deferred is none for want of an object, and neither is a parcel
  refine ⟨?ok, ?error, candid_convert o id c, ?visit⟩
  case ok => exact fun p => hkept _ nofun
  case error =>
    intro e he
    refine hkept _ fun category origin heq => ?_
    rw [Except.error.inj heq] at he
    cases he
  case visit =>
    rintro s rfl
    exact Sweep.ctx_visit s o

/-- A protocol whose one neighbour takes routes by one policy and is sent routes by another. -/
def twoWayBgp : LegacyObject :=
  ⟨"g", "bgp", none, .featureTemplate, "cisco_bgp", .obj [("as-num", .str "65000"),
    ("neighbor", .arr [.obj [("address", .str "10.0.0.1"), ("remote-as", .str "65001"),
      ("address-family", .arr [.obj [("family-type", .str "ipv4-unicast"),
        ("route-policy", .arr [.obj [("direction", .str "out"), ("pol-name", .str "p")],
          .obj [("pol-name", .str "q")]])]])]])]⟩

/-- The protocol waits for its second policy, and a context with both gives a parcel that one
    with a third policy leaves as it is. -/
theorem convert_mono_twoWayBgp :
    let id := generatedId .featureTemplate "g"
    let first : Context := (Context.empty.register .policyDefinition "p").2
    let both : Context := (first.register .policyDefinition "q").2
    let more : Context := (both.register .policyDefinition "r").2
    (convert twoWayBgp id first = .error (.unresolved .policyDefinition "q") ∧
      first.resolve .policyDefinition "q" = none) ∧
    ∃ p, convert twoWayBgp id both = .ok p ∧ convert twoWayBgp id more = .ok p := by
  intro id first both more
  have hgrown : first.Within both := Context.within_register _ _ _
  have hmore : both.Within more := Context.within_register _ _ _
  have hwaits : convert twoWayBgp id first = .error (.unresolved .policyDefinition "q") := by
    decide +kernel
  have hmade : (convert twoWayBgp id both).map Parcel.type = .ok .bgp := by decide +kernel
  obtain ⟨-, -, hmissing, -⟩ := convert_mono twoWayBgp id first both hgrown
  obtain ⟨p, hp, -⟩ := map_eq_ok hmade
  obtain ⟨hkept, -⟩ := convert_mono twoWayBgp id both more hmore
  exact ⟨⟨hwaits, hmissing _ _ hwaits⟩, p, hp, hkept p hp⟩

end ProfileMigration
