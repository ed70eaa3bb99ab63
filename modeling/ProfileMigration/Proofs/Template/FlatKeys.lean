/-
  ProfileMigration.Proofs.Template.FlatKeys

  The conversion of definitions whose settings stand in a nested object or under flat keys:

    Template.containers             -- the objects that templates read through
    Template.Alike                  -- field trees that read the same for every template
    Template.Alike.content          -- every template makes the same of such trees
    Template.ospf_of_group?_eq_none -- what is made of a protocol without its group
    convert_flatMembers             -- flat keys convert like the object, but for the one that is
                                       looked up by itself
-/
import ProfileMigration.Proofs.Legacy.Flattening
import ProfileMigration.Proofs.Template.Reading
import ProfileMigration.Proofs.Template.Steadiness

namespace ProfileMigration

namespace Template

/-- The members that settings are kept in and that are read through. -/
def containers : List String :=
  ["disk", "keys", "master", "app-route", "gps-location", "ip", "tunnel-interface",
    "defaultAction"]

/-- A path that leads to no container itself, nor to what only describes one. -/
def Through (path : String) : Prop := ∀ k ∈ containers, Path.Settled k path

instance (path : String) : Decidable (Through path) :=
  inferInstanceAs (Decidable (∀ k ∈ containers, _))

/-- Field trees that read the same, but for containers by themselves. -/
structure Alike (m m' : FieldMap) : Prop where
  field? : ∀ path, Through path → m'.field? path = m.field? path
  has : ∀ path, Path.Single path → m'.has path = m.has path

theorem alike_of_flattens {k : String} {inner m m' : FieldMap} (hk : k ∈ containers)
    (h : FieldMap.Flattens k inner m m') : Alike m m' where
  field? _ hpath := h.field?_eq (hpath k hk)
  has _ hpath := h.has_eq hpath

namespace Alike

variable {m m' : FieldMap} {path : String}

/-! ## Reading -/

theorem value? (h : Alike m m') (hpath : Through path) : m'.value? path = m.value? path :=
  congrArg (·.bind Field.value?) (h.field? path hpath)

theorem group? (h : Alike m m') (hpath : Through path) : m'.group? path = m.group? path :=
  congrArg (·.bind Field.group?) (h.field? path hpath)

theorem items (h : Alike m m') (hpath : Through path) : m'.items path = m.items path := by
  rw [FieldMap.items, FieldMap.items, h.field? path hpath]

theorem configured? (h : Alike m m') (hpath : Through path) :
    configured? m' path = configured? m path :=
  congrArg (Option.filter _) (h.value? hpath)

theorem intOpt (h : Alike m m') (hpath : Through path) : intOpt m' path = intOpt m path :=
  intOpt_congr (h.configured? hpath)

theorem intOr (h : Alike m m') (hpath : Through path) (default : Int64) :
    intOr m' path default = intOr m path default :=
  intOr_congr (h.configured? hpath) default

theorem intRequired (h : Alike m m') (hpath : Through path) :
    intRequired m' path = intRequired m path :=
  intRequired_congr (h.configured? hpath)

theorem boolOr (h : Alike m m') (hpath : Through path) (default : Bool) :
    boolOr m' path default = boolOr m path default :=
  boolOr_congr (h.configured? hpath) default

theorem textOpt (h : Alike m m') (hpath : Through path) : textOpt m' path = textOpt m path :=
  textOpt_congr (h.configured? hpath)

theorem textRequired (h : Alike m m') (hpath : Through path) :
    textRequired m' path = textRequired m path :=
  textRequired_congr (h.configured? hpath)

theorem textOr (h : Alike m m') (hpath : Through path) (default : String) :
    textOr m' path default = textOr m path default :=
  textOr_congr (h.configured? hpath) default

/-! ## Templates -/

variable (h : Alike m m')
include h

theorem basic : basic m' = basic m := by
  simp (disch := decide) only [Template.basic, h.intOpt, h.boolOr, h.textOr, h.textOpt,
    h.configured?]

theorem banner : banner m' = banner m := by
  simp (disch := decide) only [Template.banner, h.textOr]

theorem logging : logging m' = logging m := by
  simp (disch := decide) only [Template.logging, h.boolOr, h.intOr, h.items]

theorem ntp : ntp m' = ntp m := by
  simp (disch := decide) only [Template.ntp, h.items, h.boolOr, h.intOpt, h.textOpt,
    h.configured?]

theorem bfd : bfd m' = bfd m := by
  simp (disch := decide) only [Template.bfd, h.items, h.intOr]

theorem omp : omp m' = omp m := by
  simp (disch := decide) only [Template.omp, h.items, h.intOr, h.boolOr]

theorem vpn : vpn m' = vpn m := by
  simp (disch := decide) only [Template.vpn, h.items, h.intRequired, h.textOpt]

theorem ethernet : ethernet m' = ethernet m := by
  simp (disch := decide) only [Template.ethernet, interfaceAddress, interfaceTunnel,
    h.textRequired, h.boolOr, h.intOr, h.textOpt, h.configured?, h.has, h.textOr]

theorem bgp (ctx : Context) : bgp ctx m' = bgp ctx m := by
  simp (disch := decide) only [Template.bgp, h.items, h.intRequired, h.textOpt]

theorem ospf (ctx : Context) : ospf ctx m' = ospf ctx m := by
  simp (disch := decide) only [Template.ospf, h.group?]

theorem routePolicy (ctx : Context) : routePolicy ctx m' = routePolicy ctx m := by
  simp (disch := decide) only [Template.routePolicy, h.items, h.textOr]

theorem policyList : policyList m' = policyList m := by
  simp (disch := decide) only [Template.policyList, listTypeOf, h.items, h.value?]

/-- Every template makes the same of field trees that read the same. -/
theorem content (ctx : Context) : ∀ t ∈ all, t.content ctx m' = t.content ctx m := by
  simp only [all, List.forall_mem_cons]
  refine ⟨?basic, ?banner, ?logging, ?ntp, ?bfd, ?omp, h.vpn, ?ethernet, ?bgp, ?ospf, ?policy,
    h.policyList, by simp⟩
  case basic => exact congrArg (Except.map _) h.basic
  case banner => exact congrArg (Except.map _) h.banner
  case logging => exact congrArg (Except.map _) h.logging
  case ntp => exact congrArg (Except.map _) h.ntp
  case bfd => exact congrArg (Except.map _) h.bfd
  case omp => exact congrArg (Except.map _) h.omp
  case ethernet => exact congrArg (Except.map _) h.ethernet
  case bgp => exact congrArg (Except.map _) (h.bgp ctx)
  case ospf => exact congrArg (Except.map _) (h.ospf ctx)
  case policy => exact congrArg (Except.map _) (h.routePolicy ctx)

end Alike

/-! ## The group that is looked up by itself -/

theorem configured?_nil (path : String) : configured? [] path = none := by
  rw [configured?, FieldMap.value?, FieldMap.field?_nil]
  rfl

theorem items_nil (path : String) : FieldMap.items [] path = [] := by
  rw [FieldMap.items, FieldMap.field?_nil]

theorem intOr_nil (path : String) (default : Int64) :
    intOr [] path default = .ok (.int default) := by
  rw [intOr, orDefault, configured?_nil]
  rfl

/-- What a protocol becomes of which nothing is said. -/
def ospfDefaults : FieldMap :=
  assemble [("externalDistance", some (.int 110)), ("interAreaDistance", some (.int 110)),
    ("intraAreaDistance", some (.int 110))]

/-- Without its group, the protocol is made of defaults, whatever else the definition holds. -/
theorem ospf_of_group?_eq_none {values : FieldMap} (h : values.group? "ospf" = none)
    (ctx : Context) : ospf ctx values = .ok ospfDefaults := by
  rw [ospf, h]
  simp only [Option.getD_none, Option.map_none, textOpt, withRoutePolicies, configured?_nil,
    items_nil, intOr_nil, List.mapM_nil]
  -- What is not there is not written
  have hdata : assemble [("routerId", none), ("externalDistance", some (.int 110)),
      ("interAreaDistance", some (.int 110)), ("intraAreaDistance", some (.int 110))] =
        ospfDefaults := by
    rw [ospfDefaults, assemble, assemble, List.foldl_cons]
  exact congrArg Except.ok hdata

end Template

/-! ## Flattened definitions -/

/-- An object converts alike under definitions of which its template makes the same. -/
theorem convert_congr_of_kind {o : LegacyObject} {definition : Json} {id : Uuid} {c : Context}
    (h : ∀ t ∈ template? o.kind, t.content c (Legacy.normalize t.hints definition) =
      t.content c (Legacy.normalize t.hints o.definition)) :
    convert { o with definition := definition } id c = convert o id c := by
  rw [convert, convert]
  cases ht : template? o.kind with
  | none => rfl
  | some t =>
    dsimp only
    rw [h t ht]

theorem convert_congr {o : LegacyObject} {definition : Json} {id : Uuid} {c : Context}
    (h : ∀ t ∈ Template.all, t.content c (Legacy.normalize t.hints definition) =
      t.content c (Legacy.normalize t.hints o.definition)) :
    convert { o with definition := definition } id c = convert o id c :=
  convert_congr_of_kind fun t ht => h t (template?_mem ht)

/-- A definition that keeps an object of settings as one member converts like the one that has a
    flat member for each member of that object, if it is read through the object. The protocol
    whose settings all stand in one object looks that up by itself: under flat keys none of them
    is found, and it is made of defaults. -/
theorem convert_flatMembers {o : LegacyObject} {id : Uuid} {c : Context} {k : String}
    {inner members flat : List (String × Json)} (hdefinition : o.definition = .obj members)
    (h : Legacy.Nests k inner members) (hflat : flat.Perm (Legacy.flatMembers k inner members)) :
    (k ∈ Template.containers →
      convert { o with definition := .obj flat } id c = convert o id c) ∧
    (k = "ospf" → o.kind = "cisco_ospf" → convert { o with definition := .obj flat } id c =
      .ok ⟨some id, o.name, o.description, .ospf, Template.ospfDefaults⟩) := by
  constructor
  · intro hk
    have hcontainer : ∀ k ∈ Template.containers, Path.Single k ∧ k ∉ Legacy.metaKeys := by
      decide +kernel
    obtain ⟨hsingle, hmeta⟩ := hcontainer k hk
    -- Whatever the hints of the template are, both field trees read the same
    refine convert_congr fun t ht => ?_
    rw [hdefinition]
    have hflattens := h.flattens hsingle hmeta hflat t.hints
    exact (Template.alike_of_flattens hk hflattens).content c t ht
  · rintro rfl hkind
    have htemplate : template? o.kind = some (Template.referring "cisco_ospf" Template.ospfHints
        .ospf Template.ospf) := by
      rw [hkind]
      rfl
    have hsingle : Path.Single "ospf" := by decide +kernel
    have hflattens := h.flattens hsingle (by decide) hflat Template.ospfHints
    have hgroup : (Legacy.normalize Template.ospfHints (.obj flat)).group? "ospf" = none := by
      rw [FieldMap.group?, FieldMap.field?_of_single hsingle, Legacy.normalize, hflattens.gone]
      rfl
    refine convert_eq_ok_iff.mpr ⟨_, .ospf, Template.ospfDefaults, htemplate, ?_, rfl⟩
    exact congrArg (Except.map _) (Template.ospf_of_group?_eq_none hgroup c)

/-- What a log keeps on disk, as an object. -/
def diskSettings : List (String × Json) :=
  [("enable", .str "true"), ("file", .obj [("size", .str "20")])]

def nestedLogging : LegacyObject :=
  ⟨"l", "logging", none, .featureTemplate, "cisco_logging", .obj [("disk", .obj diskSettings)]⟩

/-- The one setting of a protocol, in its object. -/
def ospfSettings : List (String × Json) := [("router-id", .str "10.0.0.1")]

def nestedOspf : LegacyObject :=
  ⟨"o", "ospf", none, .featureTemplate, "cisco_ospf", .obj [("ospf", .obj ospfSettings)]⟩

/-- The same under a flat key. -/
def flatOspf : LegacyObject :=
  { nestedOspf with definition := .obj [("ospf/router-id", .str "10.0.0.1")] }

/-- Logging converts as before, with the file still an object; the protocol loses its setting. -/
theorem convert_flatMembers_disk :
    convert
        { nestedLogging with definition := .obj [("disk/enable", .str "true"),
            ("disk/file", .obj [("size", .str "20")])] }
        (generatedId .featureTemplate "l") ⟨[], []⟩ =
      convert nestedLogging (generatedId .featureTemplate "l") ⟨[], []⟩ ∧
    convert flatOspf (generatedId .featureTemplate "o") ⟨[], []⟩ =
      .ok ⟨some (generatedId .featureTemplate "o"), "ospf", none, .ospf,
        Template.ospfDefaults⟩ := by
  have hdisk : Legacy.Nests "disk" diskSettings [("disk", .obj diskSettings)] :=
    ⟨by decide, by decide, by decide, by decide, by decide, by decide, by decide⟩
  have hospf : Legacy.Nests "ospf" ospfSettings [("ospf", .obj ospfSettings)] :=
    ⟨by decide, by decide, by decide, by decide, by decide, by decide, by decide⟩
  exact ⟨(convert_flatMembers rfl hdisk (by decide)).1 (by decide),
    (convert_flatMembers (o := nestedOspf) rfl hospf (by decide)).2 rfl rfl⟩

/-- Both forms of the protocol convert, and not to the same. -/
theorem convert_nestedOspf_ne_flatOspf :
    flatOspf.definition =
      .obj (Legacy.flatMembers "ospf" ospfSettings [("ospf", .obj ospfSettings)]) ∧
    (convert nestedOspf (generatedId .featureTemplate "o") ⟨[], []⟩).map
        (·.data.value? "routerId") = .ok (some (.text "10.0.0.1")) ∧
    (convert flatOspf (generatedId .featureTemplate "o") ⟨[], []⟩).map
        (·.data.value? "routerId") = .ok none := by
  decide +kernel

end ProfileMigration
