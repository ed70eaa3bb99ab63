/-
  ProfileMigration.Proofs.Template.Unsetting

  Members of a definition that say nothing, and definitions without them:

    Legacy.Blank            -- the ways to say nothing
    Legacy.Unsets           -- a definition with such a member, and the same without it
    Template.presences      -- what templates ask about the presence of members, whatever they say
    Template.Unset.content  -- where that is the same, every template makes the same of both
    convert_unset           -- so that saying nothing and leaving out convert alike
-/
import ProfileMigration.Proofs.Legacy.Sources
import ProfileMigration.Proofs.Template.Blanks
import ProfileMigration.Proofs.Template.FlatKeys

namespace ProfileMigration

namespace Template

/-! ## Questions about presence -/

/-- A route asks whether it has a null interface, if it has no next hop. -/
def asksNull (route : FieldMap) : Bool :=
  (route.items "next-hop").isEmpty && (route.value? "null0").isSome

/-- An entry of a list of applications asks whether it has a family. -/
def asksFamily (entry : FieldMap) : Bool := (entry.value? "appFamily").isSome

/-- The text that names the type of a list. -/
def listTypeText? (values : FieldMap) : Option String :=
  ((values.value? "type").bind TypedValue.literal?).bind Literal.str?

/-- The answers that the template of a legacy type gets where it asks whether a member is there,
    whatever the member says. -/
def presences (kind : String) (values : FieldMap) : List Bool :=
  if kind = "cisco_vpn" then (values.items "ip/route").map asksNull
  else if kind = "cisco_vpn_interface" then [values.has "tunnel-interface"]
  else if (listType? kind).isSome then
    (listTypeText? values).isSome :: match listTypeOf values with
      | .ok .appList => (values.items "entries").map asksFamily
      | _ => []
  else []

namespace Unset

variable {m m' : FieldMap} {path : String}

/-! ## Readers -/

theorem intOpt (h : Unset m m') (path : String) : intOpt m' path = intOpt m path :=
  intOpt_congr (h.configured? path)

theorem intOr (h : Unset m m') (path : String) (default : Int64) :
    intOr m' path default = intOr m path default :=
  intOr_congr (h.configured? path) default

theorem intRequired (h : Unset m m') (path : String) : intRequired m' path = intRequired m path :=
  intRequired_congr (h.configured? path)

theorem boolOr (h : Unset m m') (path : String) (default : Bool) :
    boolOr m' path default = boolOr m path default :=
  boolOr_congr (h.configured? path) default

theorem textOpt (h : Unset m m') (path : String) : textOpt m' path = textOpt m path :=
  textOpt_congr (h.configured? path)

theorem textRequired (h : Unset m m') (path : String) :
    textRequired m' path = textRequired m path :=
  textRequired_congr (h.configured? path)

theorem textOr (h : Unset m m') (path default : String) :
    textOr m' path default = textOr m path default :=
  textOr_congr (h.configured? path) default

theorem required (h : Unset m m') (path : String) : required m' path = required m path :=
  required_congr (h.configured? path)

theorem fixedText? (h : Unset m m') (path : String) : fixedText? m' path = fixedText? m path :=
  fixedText?_congr (h.configured? path)

theorem fixedText (h : Unset m m') (path reported : String) :
    fixedText m' path reported = fixedText m path reported :=
  fixedText_congr (h.configured? path) reported

/-! ## Items -/

theorem isEmpty_items (h : Unset m m') (path : String) :
    (m'.items path).isEmpty = (m.items path).isEmpty := by
  have hlength := (h.items path).length_eq
  rw [Bool.eq_iff_iff, List.isEmpty_iff_length_eq_zero, List.isEmpty_iff_length_eq_zero, hlength]

variable {β : Type}

/-- Items are converted alike, if those that differ are whenever a question about them has the same
    answer. -/
theorem mapM_items_of_asked (h : Unset m m') {ask : FieldMap → Bool}
    {f : FieldMap → Converted β}
    (hf : ∀ row row', Unset row row' → ask row' = ask row → f row' = f row)
    (hask : (m'.items path).map ask = (m.items path).map ask) :
    (m'.items path).mapM f = (m.items path).mapM f := by
  have hitems := h.items path
  generalize m.items path = rows at hitems hask ⊢
  generalize m'.items path = rows' at hitems hask ⊢
  induction hitems with
  | nil => rfl
  | @cons row row' rest rest' hrow _ ih =>
    rw [List.map_cons, List.map_cons] at hask
    obtain ⟨hfirst, hrest⟩ := List.cons.inj hask
    have heq : f row' = f row := by
      rcases hrow with rfl | hunset
      · rfl
      · exact hf row row' hunset hfirst
    rw [List.mapM_cons, List.mapM_cons, heq, ih hrest]

theorem mapM_items (h : Unset m m') {f : FieldMap → Converted β}
    (hf : ∀ row row', Unset row row' → f row' = f row) :
    (m'.items path).mapM f = (m.items path).mapM f := by
  have hask : (m'.items path).map (fun _ => true) = (m.items path).map (fun _ => true) := by
    rw [List.map_const', List.map_const', (h.items path).length_eq]
  exact h.mapM_items_of_asked (fun row row' hrow _ => hf row row' hrow) hask

theorem foldlM_items (h : Unset m m') {f : β → FieldMap → Converted β}
    (hf : ∀ b row row', Unset row row' → f b row' = f b row) (b : β) :
    (m'.items path).foldlM f b = (m.items path).foldlM f b := by
  have hitems := h.items path
  generalize m.items path = rows at hitems ⊢
  generalize m'.items path = rows' at hitems ⊢
  induction hitems generalizing b with
  | nil => rfl
  | @cons row row' rest rest' hrow _ ih =>
    have heq : f b row' = f b row := by
      rcases hrow with rfl | hunset
      · rfl
      · exact hf b row row' hunset
    rw [List.foldlM_cons, List.foldlM_cons, heq]
    exact congrArg _ (funext ih)

/-! ## The system profile -/

theorem basic (h : Unset m m') : basic m' = basic m := by
  simp only [Template.basic, h.intOpt, h.boolOr, h.textOr, h.textOpt, h.configured?]

theorem banner (h : Unset m m') : banner m' = banner m := by
  simp only [Template.banner, h.textOr]

theorem logServer (h : Unset m m') : logServer m' = logServer m := by
  simp only [Template.logServer, h.textRequired, h.intOr, h.boolOr, h.textOpt, h.textOr]

theorem logging (h : Unset m m') : logging m' = logging m := by
  simp only [Template.logging, h.boolOr, h.intOr, h.mapM_items fun _ _ hrow => hrow.logServer]

theorem timeServer (h : Unset m m') : timeServer m' = timeServer m := by
  simp only [Template.timeServer, h.textRequired, h.intOr, h.intOpt, h.boolOr, h.textOpt]

theorem timeKey (h : Unset m m') : timeKey m' = timeKey m := by
  simp only [Template.timeKey, h.intRequired, h.textRequired]

theorem ntp (h : Unset m m') : ntp m' = ntp m := by
  simp only [Template.ntp, h.boolOr, h.intOpt, h.textOpt, h.configured?,
    h.mapM_items fun _ _ hrow => hrow.timeServer, h.mapM_items fun _ _ hrow => hrow.timeKey]

theorem bfdColor (h : Unset m m') : bfdColor m' = bfdColor m := by
  simp only [Template.bfdColor, h.required, h.intOr, h.boolOr]

theorem bfd (h : Unset m m') : bfd m' = bfd m := by
  simp only [Template.bfd, h.intOr, h.mapM_items fun _ _ hrow => hrow.bfdColor]

theorem advertisedProtocol (h : Unset m m') : advertisedProtocol m' = advertisedProtocol m := by
  simp only [Template.advertisedProtocol, h.fixedText]

theorem omp (h : Unset m m') : omp m' = omp m := by
  simp only [Template.omp, h.boolOr, h.intOr, h.mapM_items fun _ _ hrow => hrow.advertisedProtocol]

/-! ## VPNs and interfaces -/

theorem withNameServer (h : Unset m m') (data : FieldMap) :
    withNameServer data m' = withNameServer data m := by
  simp only [Template.withNameServer, h.configured?, h.required]

theorem nextHop (h : Unset m m') : nextHop m' = nextHop m := by
  simp only [Template.nextHop, h.textRequired, h.intOr]

/-- A route asks about its null interface only when it has no next hop. -/
theorem staticRoute (h : Unset m m') (hask : asksNull m' = asksNull m) :
    staticRoute m' = staticRoute m := by
  rw [asksNull, asksNull, h.isEmpty_items] at hask
  simp only [Template.staticRoute, h.required, h.boolOr, h.isEmpty_items,
    h.mapM_items fun _ _ hrow => hrow.nextHop]
  cases hhops : (m.items "next-hop").isEmpty with
  | false => rfl
  | true =>
    rw [hhops, Bool.true_and, Bool.true_and] at hask
    rw [hask]

theorem vpn (h : Unset m m')
    (hask : (m'.items "ip/route").map asksNull = (m.items "ip/route").map asksNull) :
    vpn m' = vpn m := by
  simp only [Template.vpn, h.intRequired, h.textOpt,
    h.foldlM_items fun data _ _ hrow => hrow.withNameServer data,
    h.mapM_items_of_asked (fun _ _ hrow => hrow.staticRoute) hask]

theorem ethernet (h : Unset m m') (hask : m'.has "tunnel-interface" = m.has "tunnel-interface") :
    ethernet m' = ethernet m := by
  simp only [Template.ethernet, interfaceAddress, interfaceTunnel, h.textRequired, h.boolOr,
    h.intOr, h.textOpt, h.configured?, h.textOr, hask]

/-! ## Routing -/

theorem withRoutePolicy (h : Unset m m') (ctx : Context) (slots : PolicySlots)
    (data : FieldMap) : withRoutePolicy ctx slots data m' = withRoutePolicy ctx slots data m := by
  simp only [Template.withRoutePolicy, h.fixedText, h.fixedText?]

theorem withRoutePolicies (h : Unset m m') (ctx : Context) (slots : PolicySlots)
    (data : FieldMap) :
    withRoutePolicies ctx slots m' data = withRoutePolicies ctx slots m data :=
  h.foldlM_items (fun data _ _ hrow => hrow.withRoutePolicy ctx slots data) data

theorem addressFamily (h : Unset m m') (ctx : Context) :
    addressFamily ctx m' = addressFamily ctx m := by
  simp only [Template.addressFamily, h.required, h.withRoutePolicies]

theorem neighbor (h : Unset m m') (ctx : Context) : neighbor ctx m' = neighbor ctx m := by
  simp only [Template.neighbor, h.textRequired, h.intRequired, h.boolOr, h.textOpt,
    h.mapM_items fun _ _ hrow => hrow.addressFamily ctx]

theorem bgp (h : Unset m m') (ctx : Context) : bgp ctx m' = bgp ctx m := by
  simp only [Template.bgp, h.intRequired, h.textOpt,
    h.mapM_items fun _ _ hrow => hrow.neighbor ctx]

theorem areaInterface (h : Unset m m') : areaInterface m' = areaInterface m := by
  simp only [Template.areaInterface, h.textRequired, h.intOr, h.intOpt]

theorem area (h : Unset m m') : area m' = area m := by
  simp only [Template.area, h.intRequired, h.mapM_items fun _ _ hrow => hrow.areaInterface]

theorem ospf (h : Unset m m') (ctx : Context) : ospf ctx m' = ospf ctx m := by
  rw [Template.ospf, Template.ospf]
  rcases h.group "ospf" with heq | hgroup
  · rw [heq]
  · simp only [hgroup.intOr, hgroup.textOpt, hgroup.withRoutePolicies,
      hgroup.mapM_items fun _ _ hrow => hrow.area]

theorem withMatch (h : Unset m m') (ctx : Context) (data : FieldMap) :
    withMatch ctx data m' = withMatch ctx data m := by
  simp only [Template.withMatch, h.fixedText, h.intRequired]

theorem withParameter (h : Unset m m') (data : FieldMap) :
    withParameter data m' = withParameter data m := by
  simp only [Template.withParameter, h.fixedText, h.intRequired, h.textRequired]

theorem withAction (h : Unset m m') (data : FieldMap) : withAction data m' = withAction data m := by
  simp only [Template.withAction, h.fixedText,
    h.foldlM_items fun data _ _ hrow => hrow.withParameter data]

theorem policySequence (h : Unset m m') (ctx : Context) :
    policySequence ctx m' = policySequence ctx m := by
  simp only [Template.policySequence, h.intRequired, h.textOpt, h.textOr,
    h.foldlM_items fun data _ _ hrow => hrow.withMatch ctx data,
    h.foldlM_items fun data _ _ hrow => hrow.withAction data]

theorem routePolicy (h : Unset m m') (ctx : Context) : routePolicy ctx m' = routePolicy ctx m := by
  simp only [Template.routePolicy, h.textOr,
    h.mapM_items fun _ _ hrow => hrow.policySequence ctx]

/-! ## Policy lists -/

theorem entryText (h : Unset m m') (field : String) : entryText m' field = entryText m field := by
  simp only [Template.entryText, h.required]

theorem checkedText (h : Unset m m') (field : String) (valid : String → Bool)
    (complaint : String → String) :
    checkedText m' field valid complaint = checkedText m field valid complaint := by
  simp only [Template.checkedText, h.entryText]

theorem prefixEntry (h : Unset m m') (field : String) (newer : Bool) :
    prefixEntry m' field newer = prefixEntry m field newer := by
  simp only [Template.prefixEntry, entryNetwork, h.required]

/-- Only an entry of a list of applications asks whether it has a family. -/
theorem listEntry (h : Unset m m') {type : ParcelType}
    (hask : type = .appList → asksFamily m' = asksFamily m) :
    listEntry type m' = listEntry type m := by
  by_cases happ : type = .appList
  · subst happ
    have hfamily := hask rfl
    rw [asksFamily, asksFamily] at hfamily
    simp only [Template.listEntry, hfamily, h.entryText]
  · cases type
    case appList => exact absurd rfl happ
    all_goals simp only [Template.listEntry, h.prefixEntry, h.entryText, h.checkedText]

/-- What says nothing names a type exactly if it is the empty text. -/
theorem listTypeText? (h : Unset m m')
    (hask : (listTypeText? m').isSome = (listTypeText? m).isSome) :
    listTypeText? m' = listTypeText? m := by
  rw [Template.listTypeText?, Template.listTypeText?] at hask ⊢
  rcases h.value? "type" with heq | ⟨hnone, v, hv, hsays⟩
  · rw [heq]
  · rw [hnone] at hask ⊢
    exact (Option.isSome_eq_false_iff.mp hask.symm |> Option.isNone_iff_eq_none.mp).symm

theorem listTypeOf (h : Unset m m')
    (hask : (Template.listTypeText? m').isSome = (Template.listTypeText? m).isSome) :
    listTypeOf m' = listTypeOf m := by
  have htext := h.listTypeText? hask
  rw [Template.listTypeText?, Template.listTypeText?] at htext
  rw [Template.listTypeOf, Template.listTypeOf, htext]

theorem listData (h : Unset m m') {type : ParcelType}
    (hask : type = .appList →
      (m'.items path).map asksFamily = (m.items path).map asksFamily) :
    listData type (m'.items path) = listData type (m.items path) := by
  have hentries : (m'.items path).mapM (Template.listEntry type) =
      (m.items path).mapM (Template.listEntry type) := by
    by_cases happ : type = .appList
    · exact h.mapM_items_of_asked (fun _ _ hrow hsame => hrow.listEntry fun _ => hsame) (hask happ)
    · exact h.mapM_items fun _ _ hrow => hrow.listEntry fun heq => absurd heq happ
  simp only [Template.listData, hentries, h.mapM_items fun _ _ hrow => hrow.entryText "community"]

theorem policyList (h : Unset m m') {kind : String} (hkind : (listType? kind).isSome)
    (hvpn : kind ≠ "cisco_vpn") (hinterface : kind ≠ "cisco_vpn_interface")
    (hask : presences kind m' = presences kind m) : policyList m' = policyList m := by
  rw [presences, presences, if_neg hvpn, if_neg hvpn, if_neg hinterface, if_neg hinterface,
    if_pos hkind, if_pos hkind] at hask
  obtain ⟨htext, hrest⟩ := List.cons.inj hask
  rw [h.listTypeOf htext] at hrest
  simp only [Template.policyList, h.isEmpty_items, h.listTypeOf htext]
  cases htype : Template.listTypeOf m with
  | error e => rfl
  | ok type =>
    have hentries : type = .appList →
        (m'.items "entries").map asksFamily = (m.items "entries").map asksFamily := by
      rintro rfl
      rw [htype] at hrest
      exact hrest
    simp only [bind, Except.bind, h.listData hentries]

/-- Every template makes the same of both trees, if the presence of what it asks for is the same. -/
theorem content (h : Unset m m') (ctx : Context) : ∀ t ∈ all, ∀ kind ∈ t.kinds,
    presences kind m' = presences kind m → t.content ctx m' = t.content ctx m := by
  simp only [all, List.forall_mem_cons]
  refine ⟨?basic, ?banner, ?logging, ?ntp, ?bfd, ?omp, ?vpn, ?ethernet, ?bgp, ?ospf, ?policy,
    ?list, by simp⟩
  case basic => exact fun _ _ _ => congrArg (Except.map _) h.basic
  case banner => exact fun _ _ _ => congrArg (Except.map _) h.banner
  case logging => exact fun _ _ _ => congrArg (Except.map _) h.logging
  case ntp => exact fun _ _ _ => congrArg (Except.map _) h.ntp
  case bfd => exact fun _ _ _ => congrArg (Except.map _) h.bfd
  case omp => exact fun _ _ _ => congrArg (Except.map _) h.omp
  case bgp => exact fun _ _ _ => congrArg (Except.map _) (h.bgp ctx)
  case ospf => exact fun _ _ _ => congrArg (Except.map _) (h.ospf ctx)
  case policy => exact fun _ _ _ => congrArg (Except.map _) (h.routePolicy ctx)
  case vpn => exact ⟨h.vpn, List.forall_mem_nil _⟩
  case ethernet =>
    intro kind hkind hask
    obtain rfl := List.mem_singleton.mp hkind
    exact congrArg (Except.map _) (h.ethernet (List.cons.inj hask).1)
  case list =>
    intro kind hkind hask
    have hother : ∀ kind ∈ listTypes.map (·.1), (listType? kind).isSome ∧ kind ≠ "cisco_vpn" ∧
        kind ≠ "cisco_vpn_interface" := by
      decide
    obtain ⟨hlist, hvpn, hinterface⟩ := hother kind hkind
    exact h.policyList hlist hvpn hinterface hask

end Unset

end Template

/-! ## Members that say nothing -/

namespace Legacy

/-- The ways to say nothing: the empty text, and a value that is ignored and unknown. -/
inductive Blank : Json → Prop where
  | text : Blank (.str "")
  | ignored {members : List (String × Json)} (htype : wrapperType? members = some "ignore")
      (hvalue : Keyed.get? "vipValue" members ∈ [none, some .null, some (.str "")]) :
      Blank (.obj members)

/-- The members of a definition, one of which says nothing, and the same without it. It is reached
    through plain objects and lists of objects. The path is that of the member below the object of
    a list that it stands in; there is none if that is below the members, and then no other
    spelling of the path leads to anything in the object. -/
inductive Unsets : Option (List String) → List (String × Json) → List (String × Json) → Prop where
  | member {key : String} {j : Json} {before after : List (String × Json)} (hj : Blank j) :
      Unsets (some (Path.segments key)) (before ++ (key, j) :: after) (before ++ after)
  | object {path? : Option (List String)} {key : String}
      {inner inner' before after : List (String × Json)} (hplain : wrapperType? inner = none)
      (hplain' : wrapperType? inner' = none) (h : Unsets path? inner inner') :
      Unsets (path?.map (Path.segments key ++ ·)) (before ++ (key, .obj inner) :: after)
        (before ++ (key, .obj inner') :: after)
  | element {path? : Option (List String)} {key : String}
      {members members' before after : List (String × Json)} {elements elements' : List Json}
      (hobjects : ∀ j ∈ elements ++ elements', j.isObject = true)
      (h : Unsets path? members members') (halone : ∀ path ∈ path?, findAt? members' path = none) :
      Unsets none (before ++ (key, .arr (elements ++ .obj members :: elements')) :: after)
        (before ++ (key, .arr (elements ++ .obj members' :: elements')) :: after)

variable {hints : Hints} {members members' : List (String × Json)}
  {path? : Option (List String)}

/-- The empty text stays one, whatever it is declared as. -/
theorem leaf_empty (hints : Hints) (key : String) : leaf hints key (.str "") = .str "" := by
  have hcoerce : ∀ kind l, coerce kind (.str "") = some l → l = .str "" := by
    intro kind l h
    cases kind with
    | enum choices =>
      -- Only an empty choice is the empty text up to case
      obtain ⟨choice, hfind, rfl⟩ := Option.map_eq_some_iff.mp h
      have hsame : Text.sameIgnoringCase choice "" = true := by
        have hfound := List.find?_some hfind
        exact hfound
      have hnil : choice.toList.map Char.toLower = [] := eq_of_beq hsame
      rw [String.toList_eq_nil_iff.mp (List.map_eq_nil_iff.mp hnil)]
    | integer =>
      have hnone : coerce .integer (.str "") = none := by decide
      cases hnone.symm.trans h
    | float =>
      have hnone : coerce .float (.str "") = none := by decide
      cases hnone.symm.trans h
    | bool =>
      have hnone : coerce .bool (.str "") = none := by decide
      cases hnone.symm.trans h
    | address =>
      have hnone : coerce .address (.str "") = none := by decide
      cases hnone.symm.trans h
    | text =>
      have hempty : coerce .text (.str "") = some (.str "") := by decide
      exact (Option.some.inj (hempty.symm.trans h)).symm
  rw [leaf]
  cases hl : (hints.kind? key).bind (coerce · (.str "")) with
  | none =>
    have hlooks : undeclared (.str "") = .str "" := by decide
    exact hlooks
  | some l =>
    obtain ⟨kind, -, hkind⟩ := Option.bind_eq_some_iff.mp hl
    exact hcoerce kind l hkind

/-- What says nothing is a value that says nothing. -/
theorem normalizeField_blank (hints : Hints) (key : String) {j : Json} (hj : Blank j) :
    ∃ v, normalizeField hints key j = some (.value v) ∧ Template.saysNothing v = true := by
  cases hj with
  | text =>
    refine ⟨.fixed (.str ""), ?_, rfl⟩
    unfold normalizeField
    rw [leaf_empty]
  | ignored htype hvalue =>
    refine ⟨.inherited none, ?_, rfl⟩
    have hignored : ∀ j? ∈ [none, some Json.null, some (.str "")],
        ignored hints key j? = some (.value (.inherited none)) := by
      simp [ignored]
    rw [normalizeField, htype]
    exact hignored _ hvalue

theorem normalizeMembers_append (hints : Hints) (before after : List (String × Json)) :
    normalizeMembers hints (before ++ after) =
      normalizeMembers hints before ++ normalizeMembers hints after := by
  induction before with
  | nil => rfl
  | cons member rest ih =>
    obtain ⟨k, j⟩ := member
    rw [List.cons_append, normalizeMembers, normalizeMembers, ih]
    split
    · rfl
    · split
      · rfl
      · rfl

/-- A member that is no description of the definition becomes a field, if it configures one. -/
theorem normalizeMembers_middle (hints : Hints) {key : String} (hkey : key ∉ metaKeys) {j : Json}
    {f : Field} (hf : normalizeField hints key j = some f) (before after : List (String × Json)) :
    normalizeMembers hints (before ++ (key, j) :: after) =
      normalizeMembers hints before ++ (key, f) :: normalizeMembers hints after := by
  rw [normalizeMembers_append, normalizeMembers, if_neg hkey, hf]

theorem normalizeMembers_middle_meta (hints : Hints) {key : String} (hkey : key ∈ metaKeys)
    (j : Json) (before after : List (String × Json)) :
    normalizeMembers hints (before ++ (key, j) :: after) =
      normalizeMembers hints (before ++ after) := by
  rw [normalizeMembers_append, normalizeMembers, if_pos hkey, normalizeMembers_append]

/-- A list of objects becomes items. -/
theorem normalizeField_elements (hints : Hints) (key : String) {elements elements' : List Json}
    (hobjects : ∀ j ∈ elements ++ elements', j.isObject = true)
    (members : List (String × Json)) :
    normalizeField hints key (.arr (elements ++ .obj members :: elements')) =
      some (.items (normalizeRows hints elements ++ normalizeMembers hints members ::
        normalizeRows hints elements')) := by
  have hall : (elements ++ .obj members :: elements').all Json.isObject = true := by
    obtain ⟨hbefore, hafter⟩ := List.forall_mem_append.mp hobjects
    refine List.all_eq_true.mpr (List.forall_mem_append.mpr ⟨hbefore, ?_⟩)
    exact List.forall_mem_cons.mpr ⟨rfl, hafter⟩
  have hne : elements ++ .obj members :: elements' ≠ [] :=
    List.append_ne_nil_of_right_ne_nil _ (List.cons_ne_nil _ _)
  rw [normalizeField, if_pos ⟨hne, hall⟩, normalizeRows_eq, normalizeRows_eq, normalizeRows_eq,
    List.filterMap_append, List.map_append]
  rfl

/-- What is left out of a definition is dropped from its field tree, unless it only describes the
    definition, and then nothing changes. -/
theorem Unsets.drops (h : Unsets path? members members') (hints : Hints) :
    normalizeMembers hints members' = normalizeMembers hints members ∨
      Template.Drops path? (normalizeMembers hints members) (normalizeMembers hints members') := by
  induction h with
  | @member key j before after hj =>
    by_cases hmeta : key ∈ metaKeys
    · exact .inl (normalizeMembers_middle_meta hints hmeta j before after).symm
    · obtain ⟨v, hv, hsays⟩ := normalizeField_blank hints key hj
      rw [normalizeMembers_middle hints hmeta hv, normalizeMembers_append]
      exact .inr (.value hsays)
  | @object path? key inner inner' before after hplain hplain' _ ih =>
    by_cases hmeta : key ∈ metaKeys
    · rw [normalizeMembers_middle_meta hints hmeta, normalizeMembers_middle_meta hints hmeta]
      exact .inl rfl
    · have hfield : normalizeField hints key (.obj inner) =
          some (.group (normalizeMembers hints inner)) := by
        rw [normalizeField, hplain]
      have hfield' : normalizeField hints key (.obj inner') =
          some (.group (normalizeMembers hints inner')) := by
        rw [normalizeField, hplain']
      rw [normalizeMembers_middle hints hmeta hfield, normalizeMembers_middle hints hmeta hfield']
      rcases ih with heq | hdrops
      · exact .inl (by rw [heq])
      · exact .inr (.group hdrops)
  | @element path? key inner inner' before after elements elements' hobjects _ halone ih =>
    by_cases hmeta : key ∈ metaKeys
    · rw [normalizeMembers_middle_meta hints hmeta, normalizeMembers_middle_meta hints hmeta]
      exact .inl rfl
    · have hfield := normalizeField_elements hints key hobjects inner
      have hfield' := normalizeField_elements hints key hobjects inner'
      rw [normalizeMembers_middle hints hmeta hfield, normalizeMembers_middle hints hmeta hfield']
      rcases ih with heq | hdrops
      · exact .inl (by rw [heq])
      · refine .inr (.item hdrops fun path hpath => ?_)
        rw [fieldAt?_normalizeMembers, halone path hpath]
        rfl

/-- Where no other spelling of its path leads to anything, what says nothing may as well be left
    out of the field tree. -/
theorem Unsets.unset (h : Unsets path? members members')
    (halone : ∀ path ∈ path?, findAt? members' path = none) (hints : Hints) :
    normalizeMembers hints members' = normalizeMembers hints members ∨
      Template.Unset (normalizeMembers hints members) (normalizeMembers hints members') := by
  refine (h.drops hints).imp_right fun hdrops => ⟨path?, hdrops, fun path hpath => ?_⟩
  rw [fieldAt?_normalizeMembers, halone path hpath]
  rfl

end Legacy

/-! ## Converting -/

/-- What the template of an object asks about the presence of members. -/
def LegacyObject.presences (o : LegacyObject) : List Bool :=
  match template? o.kind with
  | some t => Template.presences o.kind (Legacy.normalize t.hints o.definition)
  | none => []

/-- A member of a definition that says nothing, by the empty text or as an ignored value without
    content, converts as if it were left out, wherever among plain objects and lists of objects it
    stands. Two conditions come from look-ups that take a member for set because it is there. No
    other spelling of its path leads to anything, since the member hides that. And the questions
    about presence that the template asks have the same answers: for the null interface of a route
    without next hops, for a tunnel, for the family of an application, and for a type of list. -/
theorem convert_unset {o : LegacyObject} {id : Uuid} {c : Context}
    {members members' : List (String × Json)} {path? : Option (List String)}
    (hdefinition : o.definition = .obj members) (h : Legacy.Unsets path? members members')
    (halone : ∀ path ∈ path?, Legacy.findAt? members' path = none)
    (hpresences : { o with definition := .obj members' : LegacyObject }.presences = o.presences) :
    convert { o with definition := .obj members' } id c = convert o id c := by
  refine convert_congr_of_kind fun t ht => ?_
  rw [hdefinition, Legacy.normalize, Legacy.normalize]
  rcases h.unset halone t.hints with heq | hunset
  · rw [heq]
  · have hkind : o.kind ∈ t.kinds := by
      have hfound := List.find?_some ht
      exact List.contains_iff_mem.mp hfound
    refine hunset.content c t (template?_mem ht) o.kind hkind ?_
    rw [LegacyObject.presences, LegacyObject.presences, Option.mem_def.mp ht, hdefinition]
      at hpresences
    exact hpresences

/-- An object of a legacy type with given members. -/
def objectOf (kind : String) (members : List (String × Json)) : LegacyObject :=
  ⟨"x", "x", none, .featureTemplate, kind, .obj members⟩

/-- A log server, and the same with a network of which nothing is said. -/
def logServerMembers : List (String × Json) := [("name", .str "10.0.0.5")]

/-- The server with the blank logs like the one without. -/
theorem convert_unset_logging :
    Legacy.findAt? logServerMembers ["vpn"] = none ∧
    convert (objectOf "cisco_logging" [("server", .arr [.obj logServerMembers])])
        (generatedId .featureTemplate "x") ⟨[], []⟩ =
      convert (objectOf "cisco_logging"
          [("server", .arr [.obj (("vpn", .str "") :: logServerMembers)])])
        (generatedId .featureTemplate "x") ⟨[], []⟩ := by
  have hvpn : Path.segments "vpn" = ["vpn"] := by decide +kernel
  have hnone : Legacy.findAt? logServerMembers ["vpn"] = none := by decide +kernel
  have hserver : Legacy.Unsets (some (Path.segments "vpn"))
      ([] ++ ("vpn", .str "") :: logServerMembers) ([] ++ logServerMembers) := .member .text
  have hservers : Legacy.Unsets none
      ([] ++ [("server", .arr ([] ++ [.obj (("vpn", .str "") :: logServerMembers)]))])
      ([] ++ [("server", .arr ([] ++ [.obj logServerMembers]))]) := by
    refine .element (List.forall_mem_nil _) hserver fun path hpath => ?_
    rw [← Option.some.inj hpath, hvpn]
    exact hnone
  exact ⟨hnone, convert_unset (o := objectOf "cisco_logging" _) rfl hservers nofun rfl⟩

/-! ## Where being there counts -/

/-- The route of a VPN to nowhere, if nothing that is said makes a null interface. -/
def routeMembers : List (String × Json) := [("prefix", .str "10.0.0.0/8")]

def vpnMembers (route : List (String × Json)) : List (String × Json) :=
  [("vpn-id", .str "10"), ("ip", .obj [("route", .arr [.obj route])])]

/-- A null interface of which nothing is said makes a route that is missing its next hop without
    it, although the path of the member is its only spelling. -/
theorem convert_blankNull :
    (∃ path?, Legacy.Unsets path? (vpnMembers (("null0", .str "") :: routeMembers))
      (vpnMembers routeMembers)) ∧
    (convert (objectOf "cisco_vpn" (vpnMembers (("null0", .str "") :: routeMembers)))
        (generatedId .featureTemplate "x") ⟨[], []⟩).map
      (fun p => (p.data.items "ipv4Route").map (·.value? "oneOfIpRoute/null0")) =
        .ok [some (.bool true)] ∧
    convert (objectOf "cisco_vpn" (vpnMembers routeMembers)) (generatedId .featureTemplate "x")
      ⟨[], []⟩ = .error (.missing "ip/route/next-hop") := by
  refine ⟨⟨none, ?_⟩, by decide +kernel, by decide +kernel⟩
  have hnull : Path.segments "null0" = ["null0"] := by decide +kernel
  have hnone : Legacy.findAt? routeMembers ["null0"] = none := by decide +kernel
  have hroute : Legacy.Unsets (some (Path.segments "null0"))
      ([] ++ ("null0", .str "") :: routeMembers) ([] ++ routeMembers) := .member .text
  have hroutes : Legacy.Unsets none
      ([] ++ [("route", .arr ([] ++ [.obj (("null0", .str "") :: routeMembers)]))])
      ([] ++ [("route", .arr ([] ++ [.obj routeMembers]))]) := by
    refine .element (List.forall_mem_nil _) hroute fun path hpath => ?_
    rw [← Option.some.inj hpath, hnull]
    exact hnone
  have hip : Legacy.Unsets (Option.map (Path.segments "ip" ++ ·) none)
      ([("vpn-id", .str "10")] ++
        [("ip", .obj [("route", .arr [.obj (("null0", .str "") :: routeMembers)])])])
      ([("vpn-id", .str "10")] ++ [("ip", .obj [("route", .arr [.obj routeMembers])])]) :=
    .object rfl rfl hroutes
  exact hip

/-- An empty tunnel makes a tunnel, an empty family hides an application, and an empty member hides
    another spelling of its path. -/
example : ∀ blank ∈ [
      ("cisco_vpn_interface", [("if-name", .str "ge0"), ("tunnel-interface", .str "")],
        [("if-name", .str "ge0")]),
      ("app", [("type", .str "app"),
          ("entries", .arr [.obj [("app", .str "mail"), ("appFamily", .str "")]])],
        [("type", .str "app"), ("entries", .arr [.obj [("app", .str "mail")]])]),
      ("cisco_logging", [("disk/enable", .str ""), ("disk", .obj [("enable", .str "true")])],
        [("disk", .obj [("enable", .str "true")])])],
    convert (objectOf blank.1 blank.2.2) (generatedId .featureTemplate "x") ⟨[], []⟩ ≠
      convert (objectOf blank.1 blank.2.1) (generatedId .featureTemplate "x") ⟨[], []⟩ := by
  decide +kernel

end ProfileMigration
