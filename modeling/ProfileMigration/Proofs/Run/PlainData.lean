/-
  ProfileMigration.Proofs.Run.PlainData

  Plans whose values keep their kind on the wire:

    Literal.isPlain                 -- a literal that no other kind is written like
    Literal.ofJson_toJson           -- it reads back as itself
    TypedValue.reread_eq            -- so does a value with such a literal
    FieldMap.reread_eq              -- and a field tree of such values
    TransformResult.plain_reloaded  -- so plans of such trees can be saved and loaded
    TransformResult.plain_misread   -- up to the last bit of a double, and to a depth

  The names of fields and variables do not matter: a group is not taken for a value even if it
  has fields called `optionType` and `value`, and braces come off a variable as they were put on.
-/
import ProfileMigration.Proofs.Plan.Reread
import ProfileMigration.Proofs.Run.Artifact

namespace ProfileMigration

/-! ## Literals -/

namespace Literal

mutual

/-- A literal that no other kind is written like: not a NaN or an infinity, not a text in the form
    of an address or a network, and not raw. -/
def isPlain : Literal → Bool
  | .bool _ | .int _ | .address _ | .network _ => true
  | .float x => x.isFinite
  | .str s => (IpAddress.ofText? s).isNone && (Network.ofText? s).isNone
  | .list items => arePlain items
  | .raw _ => false

/-- All literals of a list are plain. -/
def arePlain : List Literal → Bool
  | [] => true
  | l :: rest => isPlain l && arePlain rest

end

theorem ofJson_ofInt64 (n : Int64) : ofJson (.ofInt64 n) = .int n := by
  rw [Json.ofInt64, ofJson, ofNumber, Number.toInt64?, ExactInt.ofInt64, if_pos n.toInt_le,
    Int64.ofInt_toInt]

theorem ofJson_ofBinary64 {x : Binary64} (h : x.isFinite = true) :
    ofJson (.ofBinary64 x) = .float x := by
  rw [Json.ofBinary64, Number.ofBinary64?, dif_pos h]
  rfl

theorem ofText_plain {s : String} (h : (str s).isPlain = true) : ofText s = .str s := by
  rw [isPlain, Bool.and_eq_true, Option.isNone_iff_eq_none, Option.isNone_iff_eq_none] at h
  rw [ofText, h.1, h.2]

mutual

/-- A plain literal reads back as itself. -/
theorem ofJson_toJson : {l : Literal} → l.isPlain = true → ofJson l.toJson = l
  | .bool _, _ => rfl
  | .int n, _ => ofJson_ofInt64 n
  | .float _, h => ofJson_ofBinary64 h
  | .address a, _ => ofText_text_address a
  | .network n, _ => ofText_text_network n
  | .str _, h => ofText_plain h
  | .list items, h => by rw [toJson, ofJson, ofJsons_toJsons h]

theorem ofJsons_toJsons : {ls : List Literal} → arePlain ls = true → ofJsons (toJsons ls) = ls
  | [], _ => rfl
  | l :: rest, h => by
    rw [arePlain, Bool.and_eq_true] at h
    rw [toJsons, ofJsons, ofJson_toJson h.1, ofJsons_toJsons h.2]

end

/-- Only what is raw reads back from null. -/
theorem toJson_ne_null {l : Literal} (h : l.isPlain = true) : l.toJson ≠ .null := by
  intro hnull
  have hread := ofJson_toJson h
  rw [hnull, ofJson] at hread
  rw [← hread] at h
  cases h

end Literal

/-! ## Values and fields -/

namespace TypedValue

/-- A value whose literal, if it has one, is plain. -/
def isPlain (v : TypedValue) : Bool := v.literal?.all Literal.isPlain

/-- A plain value reads back as itself. -/
theorem reread_eq {v : TypedValue} (h : v.isPlain = true) : v.reread = v := by
  cases v with
  | fixed l =>
    have hl : l.isPlain = true := h
    rw [reread, Literal.ofJson_toJson hl]
  | reference key => rfl
  | inherited l? =>
    cases l? with
    | none => rfl
    | some l =>
      have hl : l.isPlain = true := h
      rw [reread]
      split
      · rename_i hnull
        exact absurd hnull (Literal.toJson_ne_null hl)
      · rw [Literal.ofJson_toJson hl]

end TypedValue

namespace Field

mutual

/-- A field of plain values reads back as itself. -/
theorem reread_eq : {f : Field} → (∀ v ∈ f.leaves, v.isPlain = true) → f.reread = f
  | .value v, h => by
    rw [reread, TypedValue.reread_eq (h v List.mem_cons_self)]
  | .group fields, h => by
    rw [reread, rereadOf_eq h]
  | .items rows, h => by
    rw [reread, rereadRows_eq h]

/-- So do named fields. -/
theorem rereadOf_eq : {fields : List (String × Field)} →
    (∀ v ∈ leavesOf fields, v.isPlain = true) → rereadOf fields = fields
  | [], _ => rfl
  | (k, f) :: rest, h => by
    obtain ⟨hf, hrest⟩ := List.forall_mem_append.mp h
    rw [rereadOf, reread_eq hf, rereadOf_eq hrest]

/-- So do items. -/
theorem rereadRows_eq : {rows : List (List (String × Field))} →
    (∀ v ∈ leavesOfRows rows, v.isPlain = true) → rereadRows rows = rows
  | [], _ => rfl
  | row :: rest, h => by
    obtain ⟨hrow, hrest⟩ := List.forall_mem_append.mp h
    rw [rereadRows, rereadOf_eq hrow, rereadRows_eq hrest]

end

end Field

namespace FieldMap

/-- Every value in a field tree is plain. -/
def isPlain (m : FieldMap) : Bool := m.leaves.all TypedValue.isPlain

/-- A field tree of plain values reads back as itself. -/
theorem reread_eq {m : FieldMap} (h : m.isPlain = true) : m.reread = m :=
  Field.rereadOf_eq (List.all_eq_true.mp h)

end FieldMap

theorem Parcel.reread_eq {p : Parcel} (h : p.data.isPlain = true) : p.reread = p := by
  rw [reread, FieldMap.reread_eq h]

/-! ## Plans -/

section MapParcels

variable {f : Parcel → Parcel}

theorem ParentPlan.mapParcels_eq {v : ParentPlan} (h : ∀ p ∈ v.members, f p = p) :
    v.mapParcels f = v := by
  obtain ⟨hparcel, hchildren⟩ := List.forall_mem_cons.mp h
  rw [mapParcels, hparcel, List.map_congr_left hchildren, List.map_id']

theorem ProfilePlan.mapParcels_eq {plan : ProfilePlan} (h : ∀ p ∈ plan.members, f p = p) :
    plan.mapParcels f = plan := by
  obtain ⟨hparcels, hparents⟩ := List.forall_mem_append.mp h
  have hparent : ∀ v ∈ plan.parents, v.mapParcels f = v := fun v hv =>
    ParentPlan.mapParcels_eq fun p hp => hparents p (List.mem_flatMap.mpr ⟨v, hv, hp⟩)
  rw [mapParcels, List.map_congr_left hparcels, List.map_congr_left hparent, List.map_id',
    List.map_id']

theorem TransformResult.mapParcels_eq {r : TransformResult}
    (h : ∀ plan ∈ r.plans, ∀ p ∈ plan.members, f p = p) : r.mapParcels f = r := by
  obtain ⟨hshared, hprofiles⟩ := List.forall_mem_append.mp h
  have hobjects : r.policyObjects.map (ProfilePlan.mapParcels f) = r.policyObjects := by
    cases hplan : r.policyObjects with
    | none => rfl
    | some plan =>
      rw [Option.map_some,
        ProfilePlan.mapParcels_eq (hshared plan (Option.mem_toList.mpr hplan))]
  have hprofile : ∀ plan ∈ r.profiles, plan.mapParcels f = plan := fun plan hplan =>
    ProfilePlan.mapParcels_eq (hprofiles plan hplan)
  rw [mapParcels, hobjects, List.map_congr_left hprofile, List.map_id']

end MapParcels

namespace TransformResult

/-- Every value of every parcel in the plans is plain. -/
def isPlain (r : TransformResult) : Bool :=
  r.plans.all fun plan => plan.members.all fun p => p.data.isPlain

/-- Every parcel in the plans has its names in order, as keyed fields do. -/
def Ordered (r : TransformResult) : Prop :=
  ∀ plan ∈ r.plans, ∀ p ∈ plan.members, p.data.Ordered

/-- Plans with plain values read back from their wire form as they are, and from its text as well
    if their doubles read back from their digits and they do not nest too deep. -/
theorem plain_reloaded {r : TransformResult} (hordered : r.Ordered) (hplain : r.isPlain = true) :
    Wire.read ofDocument r.toJson = .ok r ∧
      (r.toJson.isLegible = true → (Document.ofJson r.toJson).depth ≤ Json.nestingLimit →
        Artifact.parse ofDocument r.toJson.pretty = some r) := by
  have hsame : r.mapParcels Parcel.reread = r :=
    mapParcels_eq fun plan hplan p hp =>
      Parcel.reread_eq (List.all_eq_true.mp (List.all_eq_true.mp hplain plan hplan) p hp)
  have hread : Wire.read ofDocument r.toJson = .ok r := by
    rw [ofDocument_toJson hordered, hsame]
  exact ⟨hread, Artifact.parse_pretty hread⟩

/-! ### Where the text does not read back -/

/-- A profile with one parcel. -/
def ofFields (data : FieldMap) : TransformResult where
  policyObjects := none
  profiles := [⟨"site_system", none, .system, [⟨none, "basic", none, .basic, data⟩], []⟩]
  failures := []

/-- Fields with the names and values of which values on the wire are made. -/
def ambiguousFields (x : Binary64) : FieldMap := [
  ("default", .value (.reference "\x7b\x7b\x7d\x7d")),
  ("global", .group [("optionType", .group []), ("value", .items [])]),
  ("optionType", .value (.inherited (some (.list [.str "10.0.0.1/33", .list [], .float x])))),
  ("value", .items [[("optionType", .text "global"), ("value", .value (.inherited none))], []]),
  ("variable", .value (.fixed (.network (.v4 (.ofNat 32 0x0a000001) ⟨8, by decide⟩))))]

/-- A position, as a system parcel has it. -/
def positionFields (latitude : Binary64) : FieldMap :=
  [("gpsLocation", .group [("latitude", .value (.fixed (.float latitude)))])]

/-- Groups in each other. -/
def nestedFields : Nat → FieldMap
  | 0 => []
  | n + 1 => [("group", .group (nestedFields n))]

theorem ordered_ofFields {data : FieldMap} (h : data.Ordered) : (ofFields data).Ordered := by
  intro plan hplan p hp
  obtain rfl := List.mem_singleton.mp hplan
  obtain rfl := List.mem_singleton.mp hp
  exact h

theorem ordered_ambiguousFields (x : Binary64) : (ambiguousFields x).Ordered := by
  simp only [FieldMap.Ordered, Keyed.Ordered, ambiguousFields, Field.text, Field.AllOrdered,
    Field.Ordered, Field.RowsOrdered, List.map]
  decide

theorem ordered_positionFields (x : Binary64) : (positionFields x).Ordered :=
  FieldMap.ordered_singleton _
    (Field.ordered_group_iff.mpr (FieldMap.ordered_singleton _ (Field.ordered_value _)))

theorem ordered_nestedFields (n : Nat) : (nestedFields n).Ordered := by
  induction n with
  | zero => exact FieldMap.ordered_nil
  | succ n ih => exact FieldMap.ordered_singleton _ (Field.ordered_group_iff.mpr ih)

/-- With the double 48.25 in them, plans are loaded as they were saved. -/
theorem plain_reloaded_ambiguous :
    let r := ofFields (ambiguousFields ⟨0x4048200000000000⟩)
    r.Ordered ∧ r.isPlain = true ∧ r.toJson.isLegible = true ∧
      (Document.ofJson r.toJson).depth ≤ Json.nestingLimit ∧
      Wire.read ofDocument r.toJson = .ok r ∧
      Artifact.parse ofDocument r.toJson.pretty = some r := by
  intro r
  have hordered : r.Ordered := ordered_ofFields (ordered_ambiguousFields _)
  have hplain : r.isPlain = true := by decide +kernel
  have hlegible : r.toJson.isLegible = true := by decide +kernel
  have hdepth : (Document.ofJson r.toJson).depth ≤ Json.nestingLimit := by decide +kernel
  obtain ⟨hread, hparse⟩ := plain_reloaded hordered hplain
  exact ⟨hordered, hplain, hlegible, hdepth, hread, hparse hlegible hdepth⟩

/-- The double 8.886900283223533e-10 is loaded with another last bit, and what nests too deep is not
    loaded at all. -/
theorem plain_misread :
    let r := ofFields (positionFields ⟨0x3e0e89000a4a8fa8⟩)
    let deep := ofFields (nestedFields 122)
    (r.Ordered ∧ r.isPlain = true ∧
        Artifact.parse ofDocument r.toJson.pretty =
          some (ofFields (positionFields ⟨0x3e0e89000a4a8fa7⟩))) ∧
      deep.Ordered ∧ deep.isPlain = true ∧
        Artifact.parse ofDocument deep.toJson.pretty = none := by
  intro r deep
  have hlegible : deep.toJson.isLegible = true := by decide +kernel
  refine ⟨⟨ordered_ofFields (ordered_positionFields _), by decide +kernel, ?_⟩,
    ordered_ofFields (ordered_nestedFields _), by decide +kernel, ?_⟩
  · rw [Artifact.parse, Document.ofText?, Json.pretty, String.toList_ofList]
    decide +kernel
  · rw [Artifact.parse, Document.ofText?_pretty_within hlegible]
    decide +kernel

end TransformResult

end ProfileMigration
