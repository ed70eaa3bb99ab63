/-
  ProfileMigration.Proofs.Parcel.Request

  What stands where in the body that a parcel is created with:

    Json.at? / Field.at?        -- what stands at a place
    Field.at?_toJson            -- the wire form of a field has the wire forms of its parts
    Field.Becomes.at?           -- what is bound has at each place what stood there
    FieldMap.SlashFree.at?_of_field? -- what is read at a path stands at a place
    Parcel.Sends                -- every body of a parcel has a value at a place
    Parcel.sends_fixed          -- a fixed value is sent as it stands in the parcel
    Parcel.sends_text_iff       -- and no other one is
-/
import ProfileMigration.Parcel.Basic
import ProfileMigration.Proofs.Field.Binding
import ProfileMigration.Proofs.Field.Writing
import ProfileMigration.Proofs.Legacy.CleanTrees

namespace ProfileMigration

/-! ## Places -/

/-- What stands at a place of a document. -/
def Json.at? : List Step → Json → Option Json
  | [], j => some j
  | .under key :: rest, .obj members => (Keyed.get? key members).bind (at? rest)
  | .item i :: rest, .arr elements => elements[i]?.bind (at? rest)
  | _ :: _, _ => none

namespace Field

/-- What stands at a place below a field; an item is as a group. -/
def at? : List Step → Field → Option Field
  | [], f => some f
  | .under key :: rest, .group fields => (Keyed.get? key fields).bind (at? rest)
  | .item i :: rest, .items rows => rows[i]?.bind fun row => at? rest (.group row)
  | _ :: _, _ => none

variable {f g : Field} {place : List Step}

theorem at?_append (front back : List Step) (f : Field) :
    f.at? (front ++ back) = (f.at? front).bind (at? back) := by
  induction front generalizing f with
  | nil => rfl
  | cons step rest ih =>
    rw [List.cons_append]
    cases step with
    | under key =>
      cases f with
      | group fields =>
        rw [at?, at?, Option.bind_assoc]
        exact Option.bind_congr fun inner _ => ih inner
      | value | items => rfl
    | item i =>
      cases f with
      | items rows =>
        rw [at?, at?, Option.bind_assoc]
        exact Option.bind_congr fun row _ => ih (.group row)
      | value | group => rfl

/-! ## Wire forms -/

theorem get?_membersOf (key : String) (fields : FieldMap) :
    Keyed.get? key (membersOf fields) = (Keyed.get? key fields).map toJson := by
  induction fields with
  | nil => rfl
  | cons entry rest ih =>
    obtain ⟨k, f⟩ := entry
    rw [membersOf]
    by_cases hk : k = key
    · subst hk
      rw [Keyed.get?_cons_self, Keyed.get?_cons_self, Option.map_some]
    · rw [Keyed.get?_cons_of_ne hk, Keyed.get?_cons_of_ne hk, ih]

theorem elementsOf_eq (rows : List FieldMap) :
    elementsOf rows = rows.map fun row => (group row).toJson := by
  induction rows with
  | nil => rfl
  | cons row rest ih => rw [elementsOf, ih, List.map_cons, toJson]

/-- What stands at a place of a field stands there in its wire form. -/
theorem at?_toJson (h : f.at? place = some g) : f.toJson.at? place = some g.toJson := by
  induction place generalizing f with
  | nil =>
    obtain rfl := Option.some.inj h
    rfl
  | cons step rest ih =>
    cases step with
    | under key =>
      cases f with
      | group fields =>
        obtain ⟨inner, hinner, hg⟩ := Option.bind_eq_some_iff.mp h
        rw [toJson, Json.at?, get?_membersOf, hinner, Option.map_some, Option.bind_some]
        exact ih hg
      | value | items => cases h
    | item i =>
      cases f with
      | items rows =>
        obtain ⟨row, hrow, hg⟩ := Option.bind_eq_some_iff.mp h
        rw [toJson, Json.at?, elementsOf_eq, List.getElem?_map, hrow, Option.map_some,
          Option.bind_some]
        exact ih hg
      | value | group => cases h

end Field

/-! ## Bound fields -/

theorem FieldMap.Becomes.get? {remote : Uuid → Option Uuid} {key : String} {g : Field} :
    ∀ {m bound : FieldMap}, FieldMap.Becomes remote m bound → Keyed.get? key m = some g →
      ∃ g', Keyed.get? key bound = some g' ∧ g.Becomes remote g'
  | _, _, .nil, hg => by cases hg
  | (k, _) :: _, _, .cons (g := g') h hrest, hg => by
    by_cases hk : k = key
    · subst hk
      rw [Keyed.get?_cons_self] at hg
      obtain rfl := Option.some.inj hg
      exact ⟨g', Keyed.get?_cons_self _ _ _, h⟩
    · rw [Keyed.get?_cons_of_ne hk] at hg ⊢
      exact hrest.get? hg

theorem Field.RowsBecome.getElem? {remote : Uuid → Option Uuid} {row : FieldMap} :
    ∀ {rows bound : List FieldMap} {i : Nat}, Field.RowsBecome remote rows bound →
      rows[i]? = some row → ∃ row', bound[i]? = some row' ∧ row.Becomes remote row'
  | _, _, _, .nil, hrow => by cases hrow
  | _, _, 0, .cons h _, hrow => by
    obtain rfl := Option.some.inj hrow
    exact ⟨_, rfl, h⟩
  | _, _, i + 1, .cons _ hrest, hrow => hrest.getElem? hrow

namespace Field

variable {f f' g : Field} {place : List Step} {remote : Uuid → Option Uuid}

/-- A bound field has at each place what stood there, bound. -/
theorem Becomes.at? (h : f.Becomes remote f') (hg : f.at? place = some g) :
    ∃ g', f'.at? place = some g' ∧ g.Becomes remote g' := by
  induction place generalizing f f' with
  | nil =>
    obtain rfl := Option.some.inj hg
    exact ⟨f', rfl, h⟩
  | cons step rest ih =>
    cases step with
    | under key =>
      cases h with
      | group hfields =>
        obtain ⟨inner, hinner, hg⟩ := Option.bind_eq_some_iff.mp hg
        obtain ⟨inner', hinner', hbecomes⟩ := hfields.get? hinner
        obtain ⟨g', hg', hlast⟩ := ih hbecomes hg
        exact ⟨g', Option.bind_eq_some_iff.mpr ⟨inner', hinner', hg'⟩, hlast⟩
      | value | items => cases hg
    | item i =>
      cases h with
      | items hrows =>
        obtain ⟨row, hrow, hg⟩ := Option.bind_eq_some_iff.mp hg
        obtain ⟨row', hrow', hbecomes⟩ := hrows.getElem? hrow
        obtain ⟨g', hg', hlast⟩ := ih (.group hbecomes) hg
        exact ⟨g', Option.bind_eq_some_iff.mpr ⟨row', hrow', hg'⟩, hlast⟩
      | value | group => cases hg

end Field

/-! ## Paths as places -/

theorem Field.eq_group_of_group? {f : Field} {fields : FieldMap} (h : f.group? = some fields) :
    f = .group fields := by
  cases f with
  | group inner => rw [Option.some.inj h]
  | value | items => cases h

/-- Without slashes in names, a path leads to what stands in the groups that it names. -/
theorem FieldMap.SlashFree.fieldAt?_eq {m : FieldMap} (h : m.SlashFree) {segs : List String}
    (hsegs : Path.IsSegments segs) :
    m.fieldAt? segs = (Field.group m).at? (segs.map .under) := by
  obtain ⟨hne, hsingle⟩ := hsegs
  induction segs generalizing m with
  | nil => exact absurd rfl hne
  | cons s rest ih =>
    obtain ⟨hs, hrest⟩ := List.forall_mem_cons.mp hsingle
    rw [List.map_cons, Field.at?]
    by_cases hnil : rest = []
    · subst hnil
      rw [fieldAt?_singleton]
      cases Keyed.get? s m with
      | none => rfl
      | some f => rfl
    · rw [fieldAt?_cons_of_single h.single hs hnil]
      obtain ⟨next, more, rfl⟩ := List.exists_cons_of_ne_nil hnil
      cases hinner : m.groupAt? s with
      | some inner =>
        obtain ⟨f, hf, hgroup⟩ := Option.bind_eq_some_iff.mp hinner
        obtain rfl : f = .group inner := Field.eq_group_of_group? hgroup
        rw [hf, Option.bind_some, Option.bind_some]
        exact ih (h.groupAt? hinner) hnil hrest
      | none =>
        -- What is no group has nothing below it
        cases hf : Keyed.get? s m with
        | none => rfl
        | some f =>
          cases f with
          | group fields =>
            rw [FieldMap.groupAt?, hf] at hinner
            cases hinner
          | value | items => rfl

/-- What is read at a path stands at the place that its segments are. -/
theorem FieldMap.SlashFree.at?_of_field? {m : FieldMap} (h : m.SlashFree) {path : String}
    {f : Field} (hf : m.field? path = some f) :
    (Field.group m).at? ((Path.segments path).map .under) = some f := by
  rw [← h.fieldAt?_eq (Path.isSegments_segments path)]
  exact hf

theorem FieldMap.SlashFree.at?_of_value? {m : FieldMap} (h : m.SlashFree) {path : String}
    {v : TypedValue} (hv : m.value? path = some v) :
    (Field.group m).at? ((Path.segments path).map .under) = some (.value v) := by
  obtain ⟨f, hf, hvalue⟩ := Option.bind_eq_some_iff.mp hv
  rw [h.at?_of_field? hf]
  cases f with
  | value w => rw [Option.some.inj hvalue]
  | group | items => cases hvalue

/-! ## Bodies -/

/-- A tree can be bound if all its references have remote identifiers. -/
theorem FieldMap.exists_bind {ids : RemoteIds} {m : FieldMap}
    (h : ∀ r ∈ m.references, ids.get? r ≠ none) : ∃ data, m.bind ids = .ok data := by
  cases hbind : m.bind ids with
  | ok data => exact ⟨data, rfl⟩
  | error id =>
    have hfirst := FieldMap.bind_eq_error_iff.mp hbind
    have hnone : (ids.get? id).isNone := by simpa using List.find?_some hfirst
    exact absurd (Option.isNone_iff_eq_none.mp hnone) (h id (List.mem_of_find?_eq_some hfirst))

namespace Parcel

variable {p : Parcel} {place : List Step}

/-- Every body that a parcel is created with has a value at a place of its data; it has one as soon
    as all references have remote identifiers. -/
def Sends (p : Parcel) (place : List Step) (v : TypedValue) : Prop :=
  ∀ ids : RemoteIds, (∀ r ∈ p.references, ids.get? r ≠ none) →
    ∃ body, p.request ids = .ok body ∧ body.at? (.under "data" :: place) = some v.toJson

theorem sends_fixed {l : Literal}
    (h : (Field.group p.data).at? place = some (.value (.fixed l))) : p.Sends place (.fixed l) := by
  intro ids hids
  obtain ⟨data, hdata⟩ := FieldMap.exists_bind hids
  have hbecomes : (Field.group p.data).Becomes ids.get? (.group data) :=
    .group (FieldMap.bind_eq_ok_iff.mp hdata)
  obtain ⟨g, hg, hvalue⟩ := hbecomes.at? h
  -- A fixed value is no reference, so it is as it was
  obtain rfl : g = .value (.fixed l) := by
    cases hvalue with
    | value hw => exact congrArg Field.value hw
  refine ⟨_, congrArg (Except.map _) hdata, ?_⟩
  show (Keyed.get? "data" (("data", data.toJson) :: _)).bind (Json.at? place) = _
  rw [Keyed.get?_cons_self, Option.bind_some]
  exact Field.at?_toJson hg

/-- Every parcel has a body: its references may get any remote identifiers. -/
theorem exists_remoteIds (p : Parcel) :
    ∃ ids : RemoteIds, ∀ r ∈ p.references, ids.get? r ≠ none := by
  refine ⟨p.references.map fun r => (r, r), fun r hr hnone => ?_⟩
  have hne : (r != r) = true := List.lookup_eq_none_iff.mp hnone (r, r) (List.mem_map_of_mem hr)
  rw [bne_self_eq_false] at hne
  cases hne

theorem text_toJson_injective : Function.Injective fun s => (TypedValue.text s).toJson := by
  intro s t h
  have hmembers := List.cons.inj (List.cons.inj (Json.obj.inj h)).2
  exact Json.str.inj (Prod.mk.inj hmembers.1).2

/-- A parcel sends one text at a place. -/
theorem sends_text_iff {s t : String} (h : p.Sends place (.text s)) :
    p.Sends place (.text t) ↔ s = t := by
  refine ⟨fun ht => ?_, fun hsame => hsame ▸ h⟩
  obtain ⟨ids, hids⟩ := p.exists_remoteIds
  obtain ⟨body, hbody, hs⟩ := h ids hids
  obtain ⟨body', hbody', ht⟩ := ht ids hids
  obtain rfl := Except.ok.inj (hbody.symm.trans hbody')
  exact text_toJson_injective (Option.some.inj (hs.symm.trans ht))

end Parcel

end ProfileMigration
