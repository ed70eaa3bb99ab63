/-
  ProfileMigration.Proofs.Template.RoutePolicies

  What the routing protocols make of the route policies that they name:

    PolicySlots.Takes           -- the slot of a direction
    Names                       -- the policy of one entry, and the slot that it is for
    Keeps                       -- every entry is bound in a slot of its own
    Binds                       -- the same while entries are bound one after the other
    convert_keeps_routePolicies -- the protocols keep their policies, and refer to nothing else

  A slot that is taken is refused, so what is bound later never touches what was bound before.
-/
import ProfileMigration.Proofs.Plan.ReferenceClosure
import ProfileMigration.Proofs.Template.Assembling

namespace ProfileMigration

namespace Template

/-! ## Entries and slots -/

/-- The slot of a direction: inbound where an entry gives none. -/
inductive PolicySlots.Takes (slots : PolicySlots) : Option String → String → Prop where
  | unsaid : slots.Takes none slots.inbound
  | inbound : slots.Takes (some "in") slots.inbound
  | outbound {slot : String} (h : slots.outbound = some slot) : slots.Takes (some "out") slot

/-- The slots are fields of their own. -/
def PolicySlots.Single (slots : PolicySlots) : Prop :=
  ∀ direction slot, slots.Takes direction slot → Path.Single slot

theorem single_familySlots : familySlots.Single := by
  rintro _ _ (_ | _ | ⟨⟨⟩⟩)
  · decide
  · decide
  · decide

theorem single_ospfSlots : ospfSlots.Single := by
  rintro _ _ (_ | _ | ⟨⟨⟩⟩)
  · decide
  · decide

/-- An entry names a policy by its legacy id, which the context resolves, and is for a slot. -/
def Names (ctx : Context) (slots : PolicySlots) (entry : FieldMap) (slot : String) (id : Uuid) :
    Prop :=
  ∃ origin direction, fixedText? entry "pol-name" = .ok (some origin) ∧
    fixedText? entry "direction" = .ok direction ∧ slots.Takes direction slot ∧
    ctx.resolve .policyDefinition origin = some id

/-- Each of some entries has its policy bound in a slot of its own, and the other slots are
    empty. -/
def Keeps (ctx : Context) (slots : PolicySlots) (entries : List FieldMap) (made : FieldMap) :
    Prop :=
  ∃ bound : List (String × Uuid),
    List.Forall₂ (fun entry b => Names ctx slots entry b.1 b.2) entries bound ∧
    (bound.map Prod.fst).Nodup ∧
    (∀ b ∈ bound, made.field? b.1 = some (.objectRef b.2)) ∧
    ∀ direction slot, slots.Takes direction slot → slot ∉ bound.map Prod.fst →
      made.field? slot = none

/-- An identifier is that of a policy which is named below some values. -/
def Mentions (ctx : Context) (slots : PolicySlots) (values : FieldMap) (id : Uuid) : Prop :=
  ∃ entry ∈ values.items "route-policy", ∃ slot, Names ctx slots entry slot id

variable {ctx : Context} {slots : PolicySlots} {data made values : FieldMap}

/-! ## Binding entries in order -/

/-- What binding entries to slots makes of a field tree. -/
structure Binds (ctx : Context) (slots : PolicySlots) (data : FieldMap) (entries : List FieldMap)
    (bound : List (String × Uuid)) (made : FieldMap) : Prop where
  named : List.Forall₂ (fun entry b => Names ctx slots entry b.1 b.2) entries bound
  distinct : (bound.map Prod.fst).Nodup
  /-- The slots were free before. -/
  free : ∀ b ∈ bound, Keyed.get? b.1 data = none
  kept : ∀ b ∈ bound, Keyed.get? b.1 made = some (.objectRef b.2)
  others : ∀ key, key ∉ bound.map Prod.fst → Keyed.get? key made = Keyed.get? key data
  references : ∀ id, id ∈ made.objectIds ↔ (∃ b ∈ bound, id = b.2) ∨ id ∈ data.objectIds

theorem Binds.nil : Binds ctx slots data [] [] data where
  named := .nil
  distinct := List.nodup_nil
  free := List.forall_mem_nil _
  kept := List.forall_mem_nil _
  others _ _ := rfl
  references id := by simp

/-- The first entry takes a slot that was free, so that no later one can take it. -/
theorem Binds.cons {entry : FieldMap} {slot : String} {id : Uuid} {rest : List FieldMap}
    {bound : List (String × Uuid)} (hnames : Names ctx slots entry slot id)
    (hfree : Keyed.get? slot data = none)
    (h : Binds ctx slots (Keyed.insert slot (.objectRef id) data) rest bound made) :
    Binds ctx slots data (entry :: rest) ((slot, id) :: bound) made := by
  -- The slot is taken from here on, and the later ones were all free after this
  have hother : ∀ b ∈ bound, b.1 ≠ slot := by
    intro b hb heq
    have hnone := h.free b hb
    rw [heq, Keyed.get?_insert_self] at hnone
    cases hnone
  have hnew : slot ∉ bound.map Prod.fst := by
    intro hmem
    obtain ⟨b, hb, heq⟩ := List.mem_map.mp hmem
    exact hother b hb heq
  refine ⟨.cons hnames h.named, List.nodup_cons.mpr ⟨hnew, h.distinct⟩, ?free, ?kept, ?others,
    ?references⟩
  case free =>
    refine List.forall_mem_cons.mpr ⟨hfree, fun b hb => ?_⟩
    rw [← Keyed.get?_insert_of_ne (hother b hb) (.objectRef id) data]
    exact h.free b hb
  case kept =>
    refine List.forall_mem_cons.mpr ⟨?_, h.kept⟩
    rw [h.others slot hnew, Keyed.get?_insert_self]
  case others =>
    intro key hkey
    rw [List.map_cons, List.mem_cons, not_or] at hkey
    rw [h.others key hkey.2, Keyed.get?_insert_of_ne hkey.1]
  case references =>
    -- The slot was free, so nothing that was referred to before is lost
    intro r
    rw [h.references r, FieldMap.mem_objectIds_insert hfree, Field.mem_objectIds_objectRef]
    simp only [List.mem_cons, exists_eq_or_imp]
    rw [← or_assoc, or_comm (b := r = id)]

/-- What has been bound is kept, given that the slots were empty before. -/
theorem Binds.keeps {entries : List FieldMap} {bound : List (String × Uuid)}
    (h : Binds ctx slots data entries bound made) (hsingle : slots.Single)
    (hempty : ∀ direction slot, slots.Takes direction slot → Keyed.get? slot data = none) :
    Keeps ctx slots entries made := by
  have hslots : ∀ b ∈ bound, Path.Single b.1 := by
    refine forall_mem_of_forall₂ h.named ?_
    rintro entry b ⟨_, direction, -, -, htakes, -⟩
    exact hsingle direction b.1 htakes
  refine ⟨bound, h.named, h.distinct, fun b hb => ?_, fun direction slot htakes hnot => ?_⟩
  · rw [FieldMap.field?_of_single (hslots b hb)]
    exact h.kept b hb
  · rw [FieldMap.field?_of_single (hsingle direction slot htakes), h.others slot hnot]
    exact hempty direction slot htakes

theorem yields_slot (slots : PolicySlots) (direction : Option String) :
    Yields (slots.Takes direction) (slots.slot direction) := by
  unfold PolicySlots.slot
  split
  · exact .ok .unsaid
  · rename_i given
    by_cases hin : given = "in"
    · rw [if_pos hin, hin]
      exact .ok .inbound
    · rw [if_neg hin]
      by_cases hout : given = "out"
      · rw [if_pos hout, hout]
        cases hslot : slots.outbound with
        | none => exact .error _
        | some slot => exact .ok (.outbound hslot)
      · rw [if_neg hout]
        exact .error _

/-- One entry is bound in its slot, which must have been free. -/
theorem yields_withRoutePolicy_names (hsingle : slots.Single) (data entry : FieldMap) :
    Yields (fun made => ∃ slot id, Names ctx slots entry slot id ∧ Keyed.get? slot data = none ∧
      made = Keyed.insert slot (.objectRef id) data) (withRoutePolicy ctx slots data entry) := by
  rw [withRoutePolicy]
  refine (yields_fixedText _ _ _).bind fun origin horigin => ?_
  refine (Yields.self _).bind fun direction hdirection => ?_
  refine (yields_slot slots direction).bind fun slot htakes => ?_
  have hslot := hsingle direction slot htakes
  by_cases htaken : data.has slot
  · rw [if_pos htaken]
    exact .error _
  · rw [if_neg htaken, reference]
    have hfree := FieldMap.get?_of_has_eq_false hslot (Bool.eq_false_iff.mpr htaken)
    cases hid : ctx.resolve .policyDefinition origin with
    | none => exact .error _
    | some id =>
      refine .pure ⟨slot, id, ⟨origin, direction, horigin, hdirection, htakes, hid⟩, hfree, ?_⟩
      exact FieldMap.set_of_single hslot

theorem yields_foldlM_binds (hsingle : slots.Single) (entries : List FieldMap) :
    ∀ data, Yields (fun made => ∃ bound, Binds ctx slots data entries bound made)
      (entries.foldlM (withRoutePolicy ctx slots) data) := by
  -- The tree that the entries are bound in changes from one to the next
  induction entries with
  | nil =>
    intro data
    exact .pure ⟨[], .nil⟩
  | cons entry rest ih =>
    intro data
    rw [List.foldlM_cons]
    refine (yields_withRoutePolicy_names hsingle data entry).bind ?_
    rintro _ ⟨slot, id, hnames, hfree, rfl⟩
    refine (ih _).mono fun made hmade => ?_
    obtain ⟨bound, hbinds⟩ := hmade
    exact ⟨(slot, id) :: bound, hbinds.cons hnames hfree⟩

/-- An entry names one policy. -/
theorem Names.id_unique {entry : FieldMap} {slot slot' : String} {id id' : Uuid}
    (h : Names ctx slots entry slot id) (h' : Names ctx slots entry slot' id') : id = id' := by
  obtain ⟨origin, _, horigin, -, -, hid⟩ := h
  obtain ⟨origin', _, horigin', -, -, hid'⟩ := h'
  have heq : origin = origin' := by
    have hsome := Except.ok.inj (horigin.symm.trans horigin')
    exact Option.some.inj hsome
  rw [heq, hid'] at hid
  exact (Option.some.inj hid).symm

/-- Where there were no references before, they are those of the entries. -/
theorem Binds.mem_objectIds_iff {entries : List FieldMap} {bound : List (String × Uuid)}
    (h : Binds ctx slots data entries bound made) (hdata : data.RefersOnly fun _ => False)
    (id : Uuid) :
    id ∈ made.objectIds ↔ ∃ entry ∈ entries, ∃ slot, Names ctx slots entry slot id := by
  rw [h.references id, or_iff_left (hdata id)]
  refine (exists_mem_iff_of_forall₂ h.named fun entry b hb => ?_).symm
  constructor
  · rintro ⟨slot, hnames⟩
    exact hnames.id_unique hb
  · rintro rfl
    exact ⟨b.1, hb⟩

/-- The policies of an entry are kept, and are all that it refers to. -/
theorem yields_withRoutePolicies_kept (hsingle : slots.Single)
    (hempty : ∀ direction slot, slots.Takes direction slot → Keyed.get? slot data = none)
    (hdata : data.RefersOnly fun _ => False) :
    Yields (fun made => Keeps ctx slots (values.items "route-policy") made ∧
        (∀ id, id ∈ made.objectIds ↔ Mentions ctx slots values id) ∧
        ∀ key, Keyed.get? key data ≠ none → Keyed.get? key made = Keyed.get? key data)
      (withRoutePolicies ctx slots values data) := by
  refine (yields_foldlM_binds hsingle _ data).mono fun made hmade => ?_
  obtain ⟨bound, hbinds⟩ := hmade
  refine ⟨hbinds.keeps hsingle hempty, hbinds.mem_objectIds_iff hdata, fun key hkey => ?_⟩
  -- What was there before cannot be one of the slots that were taken
  refine hbinds.others key fun hmem => ?_
  obtain ⟨b, hb, rfl⟩ := List.mem_map.mp hmem
  exact hkey (hbinds.free b hb)

/-! ## The protocols -/

/-- A family of a neighbour keeps its type and its policies. -/
def FamilyKept (ctx : Context) (family row : FieldMap) : Prop :=
  row.value? "familyType" = configured? family "family-type" ∧
    Keeps ctx familySlots (family.items "route-policy") row

/-- A neighbour keeps its address, and its families in order, each with its policies. -/
def NeighborKept (ctx : Context) (neighbor row : FieldMap) : Prop :=
  row.value? "address" = textOpt neighbor "address" ∧
    List.Forall₂ (FamilyKept ctx) (neighbor.items "address-family") (row.items "addressFamily")

theorem yields_addressFamily_kept {family : FieldMap} (h : family.RefersOnly fun _ => False) :
    Yields (fun row => FamilyKept ctx family row ∧
      ∀ id, id ∈ row.objectIds ↔ Mentions ctx familySlots family id)
      (addressFamily ctx family) := by
  rw [addressFamily]
  refine ((yields_required h _).and (yields_required_configured _ _)).bind fun type htype => ?_
  obtain ⟨hrefers, hconfigured⟩ := htype
  have hsingle : Path.Single "familyType" := by decide
  have htypeField : Keyed.get? "familyType" (assemble [("familyType", some type)]) =
      some (.value type) := get?_assemble_cons hsingle (List.forall_mem_nil _)
  have hdata : FieldMap.RefersOnly (fun _ => False) (assemble [("familyType", some type)]) := by
    refine refersOnly_assemble ?_
    simp [given_some_iff, hrefers]
  have hempty : ∀ direction slot, familySlots.Takes direction slot →
      Keyed.get? slot (assemble [("familyType", some type)]) = none := by
    rintro _ _ (_ | _ | ⟨⟨⟩⟩)
    all_goals
      refine get?_assemble_of_head_ne ?_
      simp only [List.map_cons, List.map_nil]
      decide
  refine (yields_withRoutePolicies_kept single_familySlots hempty hdata).mono fun row hrow => ?_
  obtain ⟨hkeeps, hreferences, hothers⟩ := hrow
  refine ⟨⟨?_, hkeeps⟩, hreferences⟩
  -- The type was there first, so no policy has taken its place
  have hne : Keyed.get? "familyType" (assemble [("familyType", some type)]) ≠ none := by
    rw [htypeField]
    exact Option.some_ne_none _
  rw [hconfigured]
  exact FieldMap.value?_of_get? hsingle ((hothers _ hne).trans htypeField)

theorem yields_neighbor_kept (h : values.RefersOnly fun _ => False) :
    Yields (fun row => NeighborKept ctx values row ∧ ∀ id, id ∈ row.objectIds ↔
      ∃ family ∈ values.items "address-family", Mentions ctx familySlots family id)
      (neighbor ctx values) := by
  rw [neighbor]
  refine ((yields_textRequired h _).and (yields_textRequired_textOpt _ _)).bind
    fun address haddress => ?_
  obtain ⟨hrefers, hgiven⟩ := haddress
  refine (yields_intRequired h _).bind fun remote hremote => ?_
  refine (yields_boolOr h _ _).bind fun shutdown hshutdown => ?_
  refine (yields_boolOr h _ _).bind fun communities hcommunities => ?_
  refine (Yields.mapM_forall₂ fun family hfamily =>
    yields_addressFamily_kept (h.items family hfamily)).bind fun rows hrows => .pure ?_
  -- What stands beside the families refers to nothing, and is not called like them
  have hvalues : ∀ e ∈ [("address", some address), ("remoteAs", some remote),
      ("description", textOpt values "description"), ("shutdown", some shutdown),
      ("sendCommunity", some communities)], Given (fun _ => False) e.2 := by
    simp [given_some_iff, given_textOpt h, *]
  have hname : Path.Single "addressFamily" := by decide
  obtain ⟨hitems, hreferences⟩ := withItems_assemble hname hvalues
    (by simp only [List.map_cons, List.map_nil]; decide) rows
  refine ⟨⟨?address, ?families⟩, fun id => ?references⟩
  case address =>
    rw [hgiven]
    refine FieldMap.value?_of_get? (by decide) ?_
    rw [get?_withItems_of_ne (by decide)]
    refine get?_assemble_cons (by decide) ?_
    simp only [List.map_cons, List.map_nil]
    decide
  case families =>
    rw [hitems]
    exact hrows.imp fun family row hrow => hrow.1
  case references =>
    rw [hreferences]
    exact (exists_mem_iff_of_forall₂ hrows fun family row hrow => (hrow.2 id).symm).symm

theorem yields_bgp_kept (h : values.RefersOnly fun _ => False) :
    Yields (fun made =>
      List.Forall₂ (NeighborKept ctx) (values.items "neighbor") (made.items "neighbor") ∧
      ∀ id, id ∈ made.objectIds ↔ ∃ neighbor ∈ values.items "neighbor",
        ∃ family ∈ neighbor.items "address-family", Mentions ctx familySlots family id)
      (bgp ctx values) := by
  rw [bgp]
  refine (yields_intRequired h _).bind fun number hnumber => ?_
  refine (Yields.mapM_forall₂ fun row hrow => yields_neighbor_kept (h.items row hrow)).bind
    fun rows hrows => .pure ?_
  have hvalues : ∀ e ∈ [("asNum", some number), ("routerId", textOpt values "router-id")],
      Given (fun _ => False) e.2 := by
    simp [given_some_iff, given_textOpt h, hnumber]
  have hname : Path.Single "neighbor" := by decide
  obtain ⟨hitems, hreferences⟩ := withItems_assemble hname hvalues
    (by simp only [List.map_cons, List.map_nil]; decide) rows
  refine ⟨?neighbors, fun id => ?references⟩
  case neighbors =>
    rw [hitems]
    exact hrows.imp fun neighbor row hrow => hrow.1
  case references =>
    rw [hreferences]
    exact (exists_mem_iff_of_forall₂ hrows fun neighbor row hrow => (hrow.2 id).symm).symm

theorem yields_ospf_kept (h : values.RefersOnly fun _ => False) :
    let group := (values.group? "ospf").getD []
    Yields (fun made => Keeps ctx ospfSlots (group.items "route-policy") made ∧
      ∀ id, id ∈ made.objectIds ↔ Mentions ctx ospfSlots group id) (ospf ctx values) := by
  intro group
  have hgroup : group.RefersOnly fun _ => False := h.group?_getD "ospf"
  rw [ospf]
  refine (yields_intOr hgroup _ _).bind fun external hexternal => ?_
  refine (yields_intOr hgroup _ _).bind fun inter hinter => ?_
  refine (yields_intOr hgroup _ _).bind fun intra hintra => ?_
  refine (Yields.mapM fun row hrow => yields_area (hgroup.items row hrow)).bind
    fun areas hareas => ?_
  have hdata : FieldMap.RefersOnly (fun _ => False) (withItems
      (assemble [("routerId", textOpt group "router-id"), ("externalDistance", external),
        ("interAreaDistance", inter), ("intraAreaDistance", intra)])
      "area" areas) := by
    refine refersOnly_withItems (refersOnly_assemble ?_) hareas _
    simp [given_some_iff, given_textOpt hgroup, *]
  -- The one slot is neither a setting nor the list of areas
  have hempty : ∀ direction slot, ospfSlots.Takes direction slot →
      Keyed.get? slot (withItems
        (assemble [("routerId", textOpt group "router-id"), ("externalDistance", external),
          ("interAreaDistance", inter), ("intraAreaDistance", intra)])
        "area" areas) = none := by
    rintro _ _ (_ | _ | ⟨⟨⟩⟩)
    all_goals
      rw [get?_withItems_of_ne (by decide)]
      refine get?_assemble_of_head_ne ?_
      simp only [List.map_cons, List.map_nil]
      decide
  refine (yields_withRoutePolicies_kept single_ospfSlots hempty hdata).mono fun made hmade => ?_
  exact ⟨hmade.1, hmade.2.1⟩

end Template

/-! ## Converted protocols -/

/-- A converted protocol keeps its route policies: each entry of each family of each neighbour,
    or of the one group of the other protocol, has its policy resolved and bound in the slot of
    its own direction, which no other entry shares, and the parcel refers to nothing else. The
    variables of the definition must not be called like identifiers. -/
theorem convert_keeps_routePolicies {o : LegacyObject} {id : Uuid} {c : Context} {p : Parcel}
    (hnames : ∀ name ∈ Legacy.variableNames o.definition, Uuid.ofText? name = none)
    (h : convert o id c = .ok p) :
    (o.kind = "cisco_bgp" →
      let values := Legacy.normalize Template.bgpHints o.definition
      List.Forall₂ (Template.NeighborKept c) (values.items "neighbor") (p.data.items "neighbor") ∧
      ∀ r, r ∈ p.references ↔ ∃ neighbor ∈ values.items "neighbor",
        ∃ family ∈ neighbor.items "address-family",
          Template.Mentions c Template.familySlots family r) ∧
    (o.kind = "cisco_ospf" →
      let group := ((Legacy.normalize Template.ospfHints o.definition).group? "ospf").getD []
      Template.Keeps c Template.ospfSlots (group.items "route-policy") p.data ∧
      ∀ r, r ∈ p.references ↔ Template.Mentions c Template.ospfSlots group r) := by
  obtain ⟨t, type, data, ht, hcontent, rfl⟩ := convert_eq_ok_iff.mp h
  have hvalues : (Legacy.normalize t.hints o.definition).RefersOnly fun _ => False := by
    refine Legacy.refersOnly_normalize t.hints fun name hname id hid => ?_
    rw [hnames name hname] at hid
    cases hid
  constructor
  · intro hkind
    have htemplate : template? o.kind = some (Template.referring "cisco_bgp" Template.bgpHints
        .bgp Template.bgp) := by
      rw [hkind]
      rfl
    obtain rfl := Option.some.inj (ht.symm.trans htemplate)
    obtain ⟨made, hmade, hpair⟩ := map_eq_ok hcontent
    obtain ⟨-, rfl⟩ := Prod.mk.inj hpair
    obtain ⟨hneighbors, hreferences⟩ := Template.yields_bgp_kept hvalues made hmade
    exact ⟨hneighbors, fun r => Parcel.mem_references_iff.trans (hreferences r)⟩
  · intro hkind
    have htemplate : template? o.kind = some (Template.referring "cisco_ospf" Template.ospfHints
        .ospf Template.ospf) := by
      rw [hkind]
      rfl
    obtain rfl := Option.some.inj (ht.symm.trans htemplate)
    obtain ⟨made, hmade, hpair⟩ := map_eq_ok hcontent
    obtain ⟨-, rfl⟩ := Prod.mk.inj hpair
    obtain ⟨hkeeps, hreferences⟩ := Template.yields_ospf_kept hvalues made hmade
    exact ⟨hkeeps, fun r => Parcel.mem_references_iff.trans (hreferences r)⟩

/-- A protocol with one neighbour, which is no list, and two families: one takes and sends routes
    by policies of their own, and the other takes them by the first of these. -/
def pairedBgp : LegacyObject :=
  ⟨"g", "bgp", none, .featureTemplate, "cisco_bgp", .obj [("as-num", .str "65000"),
    ("neighbor", .obj [("address", .str "10.0.0.1"),
      ("address-family", .arr [
        .obj [("family-type", .str "ipv4-unicast"),
          ("route-policy", .arr [.obj [("direction", .str "out"), ("pol-name", .str "p")],
            .obj [("pol-name", .str "q")]])],
        .obj [("family-type", .str "ipv6-unicast"),
          ("route-policy", .obj [("direction", .str "in"), ("pol-name", .str "p")])]]),
      ("remote-as", .str "65001")])]⟩

/-- A protocol that takes routes by one policy. -/
def boundOspf : LegacyObject :=
  ⟨"o", "ospf", none, .featureTemplate, "cisco_ospf", .obj [("ospf", .obj [
    ("route-policy", .arr [.obj [("pol-name", .str "q")]])])]⟩

/-- Both protocols refer to their policies, once for each. -/
theorem convert_keeps_routePolicies_paired :
    let c : Context :=
      ((Context.empty.register .policyDefinition "p").2.register .policyDefinition "q").2
    let values := Legacy.normalize Template.bgpHints pairedBgp.definition
    let group := ((Legacy.normalize Template.ospfHints boundOspf.definition).group? "ospf").getD []
    (∃ p, convert pairedBgp (generatedId .featureTemplate "g") c = .ok p ∧
      p.references = [generatedId .policyDefinition "q", generatedId .policyDefinition "p"] ∧
      List.Forall₂ (Template.NeighborKept c) (values.items "neighbor")
        (p.data.items "neighbor")) ∧
    ∃ p, convert boundOspf (generatedId .featureTemplate "o") c = .ok p ∧
      p.references = [generatedId .policyDefinition "q"] ∧
      Template.Keeps c Template.ospfSlots (group.items "route-policy") p.data := by
  intro c values group
  have hbgp : (convert pairedBgp (generatedId .featureTemplate "g") c).map Parcel.references =
      .ok [generatedId .policyDefinition "q", generatedId .policyDefinition "p"] := by
    decide +kernel
  have hospf : (convert boundOspf (generatedId .featureTemplate "o") c).map Parcel.references =
      .ok [generatedId .policyDefinition "q"] := by
    decide +kernel
  constructor
  · obtain ⟨p, hp, hreferences⟩ := map_eq_ok hbgp
    obtain ⟨hkept, -⟩ := convert_keeps_routePolicies (by decide +kernel) hp
    exact ⟨p, hp, hreferences, (hkept rfl).1⟩
  · obtain ⟨p, hp, hreferences⟩ := map_eq_ok hospf
    obtain ⟨-, hkept⟩ := convert_keeps_routePolicies (by decide +kernel) hp
    exact ⟨p, hp, hreferences, (hkept rfl).1⟩

end ProfileMigration
