/-
  ProfileMigration.Proofs.Collection.Rows

  What the rows of the legacy lists say, and what each of them gives:

    Collection.IsTemplateRow / IsDeviceRow / IsPolicyRow / IsListRow
                                -- a row with what its members say
    Collection.IsAttached / IsDeviceDetail
                                -- a device template with what is attached to it
    Collection.HasRows          -- an answer with the rows of a list
    Collection.read_rows_iff    -- which is what is read of the answer
    Collection.Entry            -- what a row gives: an object, a device template or a failure
    Collection.treeOf           -- the tree of such entries, each in the list of its kind
    Collection.OfRow / Blames   -- an object with what a row says of it, and a failure
    Collection.GivesFeature / GivesDevice / GivesList / GivesPolicy
                                -- the entry that a row gives, with the answer for its detail

  The rows are those of the answer as JSON, so that nothing here depends on how they are read.
-/
import ProfileMigration.Collection.Reading
import ProfileMigration.Proofs.Wire.Fields

namespace ProfileMigration

namespace Collection

/-! ## Rows -/

/-- The row of a feature template, as the members of a JSON record. -/
structure IsTemplateRow (j : Json) (row : Summary) : Prop where
  record : j.IsRecord 4
  id : j.fieldValues 0 "templateId" = [.str row.id]
  name : j.fieldValues 1 "templateName" = [.str row.name]
  description : Json.IsText? (j.fieldValues 2 "templateDescription") row.description
  kind : j.fieldValues 3 "templateType" = [.str row.kind]

/-- The row of a device template. -/
structure IsDeviceRow (j : Json) (row : DeviceSummary) : Prop where
  record : j.IsRecord 4
  id : j.fieldValues 0 "templateId" = [.str row.id]
  name : j.fieldValues 1 "templateName" = [.str row.name]
  description : Json.IsText? (j.fieldValues 2 "templateDescription") row.description
  form : Json.IsText? (j.fieldValues 3 "configType") row.form

/-- The row of a policy list or a route policy, which differ in the key of the id. -/
structure IsPolicyRow (idKey : String) (j : Json) (row : Summary) : Prop where
  record : j.IsRecord 4
  id : j.fieldValues 0 idKey = [.str row.id]
  name : j.fieldValues 1 "name" = [.str row.name]
  kind : j.fieldValues 2 "type" = [.str row.kind]
  description : Json.IsText? (j.fieldValues 3 "description") row.description

/-- The row of a policy list, of which nothing is required before the list is added. -/
def IsListRow (j row : Json) : Prop := row = j.canonical

section

open Wire (read_record_iff)
open Wire.Gathered (map_iff seq_iff)
open Wire.Row (required_text_iff optional_text_iff)

variable {j : Json}

theorem read_featureTemplate_iff {row : Summary} :
    Wire.read featureTemplate j = .ok row ↔ IsTemplateRow j row := by
  refine read_record_iff.trans ?_
  simp only [seq_iff, map_iff, required_text_iff, optional_text_iff]
  constructor
  · rintro ⟨hrecord, _, kind, ⟨_, description, ⟨_, name, ⟨id, hid, rfl⟩, hname, rfl⟩, hdescription,
      rfl⟩, hkind, rfl⟩
    exact ⟨hrecord, hid, hname, hdescription, hkind⟩
  · rintro ⟨hrecord, hid, hname, hdescription, hkind⟩
    exact ⟨hrecord, _, _, ⟨_, _, ⟨_, _, ⟨_, hid, rfl⟩, hname, rfl⟩, hdescription, rfl⟩, hkind, rfl⟩

theorem read_deviceTemplate_iff {row : DeviceSummary} :
    Wire.read deviceTemplate j = .ok row ↔ IsDeviceRow j row := by
  refine read_record_iff.trans ?_
  simp only [seq_iff, map_iff, required_text_iff, optional_text_iff]
  constructor
  · rintro ⟨hrecord, _, form, ⟨_, description, ⟨_, name, ⟨id, hid, rfl⟩, hname, rfl⟩, hdescription,
      rfl⟩, hform, rfl⟩
    exact ⟨hrecord, hid, hname, hdescription, hform⟩
  · rintro ⟨hrecord, hid, hname, hdescription, hform⟩
    exact ⟨hrecord, _, _, ⟨_, _, ⟨_, _, ⟨_, hid, rfl⟩, hname, rfl⟩, hdescription, rfl⟩, hform, rfl⟩

theorem read_policyRow_iff {title idKey : String} {row : Summary} :
    Wire.read (policyRow title idKey) j = .ok row ↔ IsPolicyRow idKey j row := by
  refine read_record_iff.trans ?_
  simp only [seq_iff, map_iff, required_text_iff, optional_text_iff]
  constructor
  · rintro ⟨hrecord, _, description, ⟨_, kind, ⟨_, name, ⟨id, hid, rfl⟩, hname, rfl⟩, hkind,
      rfl⟩, hdescription, rfl⟩
    exact ⟨hrecord, hid, hname, hkind, hdescription⟩
  · rintro ⟨hrecord, hid, hname, hkind, hdescription⟩
    exact ⟨hrecord, _, _, ⟨_, _, ⟨_, _, ⟨_, hid, rfl⟩, hname, rfl⟩, hkind, rfl⟩, hdescription, rfl⟩

theorem read_json_iff {row : Json} : Wire.read Wire.json j = .ok row ↔ IsListRow j row := by
  rw [Wire.read_json]
  exact ⟨fun h => (Except.ok.inj h).symm, fun h => congrArg _ h.symm⟩

end

/-! ## Details -/

/-- What is attached to a device template, alone or with what is attached below it. -/
inductive IsAttached : Json → Attachment → Prop
  | single {j : Json} {id type : String} (hrecord : j.IsRecord 3)
    (hid : j.fieldValues 0 "templateId" = [.str id])
    (htype : j.fieldValues 1 "templateType" = [.str type])
    (hbelow : j.fieldValues 2 "subTemplates" = []) : IsAttached j ⟨id, type, []⟩
  | above {j : Json} {id type : String} {elements : List Json} {below : List Attachment}
    (hrecord : j.IsRecord 3) (hid : j.fieldValues 0 "templateId" = [.str id])
    (htype : j.fieldValues 1 "templateType" = [.str type])
    (hbelow : j.fieldValues 2 "subTemplates" = [.arr elements])
    (heach : List.Forall₂ IsAttached elements below) : IsAttached j ⟨id, type, below⟩

/-- The detail of a device template. -/
structure IsDeviceDetail (j : Json) (detail : DeviceDetail) : Prop where
  record : j.IsRecord 3
  name : Json.IsText? (j.fieldValues 0 "templateName") detail.name
  description : Json.IsText? (j.fieldValues 1 "templateDescription") detail.description
  templates : (j.fieldValues 2 "generalTemplates" = [] ∧ detail.templates = []) ∨
    ∃ elements, j.fieldValues 2 "generalTemplates" = [.arr elements] ∧
      List.Forall₂ IsAttached elements detail.templates

section

open Wire.Gathered (map_iff seq_iff)
open Wire.Row (required_text_iff optional_text_iff defaulted_list_iff)

/-- What is read within a bound is what is attached, where the bound is no less than the depth. -/
theorem read_attachedWithin_iff {bound : Nat} {j : Json} {a : Attachment}
    (hdepth : (Document.ofJson j).depth ≤ bound) :
    Wire.read (attachedWithin bound) j = .ok a ↔ IsAttached j a := by
  induction bound generalizing j a with
  | zero =>
    -- A record has a depth
    constructor
    · intro h
      cases h
    · intro h
      have hrecord : j.IsRecord 3 := by
        cases h with
        | single hrecord | above hrecord => exact hrecord
      cases j with
      | obj _ | arr _ => exact absurd hdepth (Nat.not_succ_le_zero _)
      | null | bool _ | num _ | str _ => cases hrecord
  | succ bound ih =>
    have hbelow : ∀ elements, j.fieldValues 2 "subTemplates" = [.arr elements] →
        ∀ below, List.Forall₂ (fun e b => Wire.read (attachedWithin bound) e = .ok b) elements
          below ↔ List.Forall₂ IsAttached elements below := by
      intro elements hvalue below
      refine forall₂_congr_of_mem fun e he b => ih ?_
      have hless := Wire.depth_lt_of_mem_list hvalue he
      omega
    refine Wire.read_record_iff.trans ?_
    simp only [seq_iff, map_iff, required_text_iff, defaulted_list_iff]
    constructor
    · rintro ⟨hrecord, _, below, ⟨_, type, ⟨id, hid, rfl⟩, htype, rfl⟩, hvalues, rfl⟩
      rcases hvalues with ⟨hnone, rfl⟩ | ⟨elements, hvalue, heach⟩
      · exact .single hrecord hid htype hnone
      · exact .above hrecord hid htype hvalue ((hbelow elements hvalue below).mp heach)
    · intro h
      cases h with
      | single hrecord hid htype hnone =>
        exact ⟨hrecord, _, _, ⟨_, _, ⟨_, hid, rfl⟩, htype, rfl⟩, .inl ⟨hnone, rfl⟩, rfl⟩
      | above hrecord hid htype hvalue heach =>
        exact ⟨hrecord, _, _, ⟨_, _, ⟨_, hid, rfl⟩, htype, rfl⟩,
          .inr ⟨_, hvalue, (hbelow _ hvalue _).mpr heach⟩, rfl⟩

theorem read_attached_iff {j : Json} {a : Attachment} :
    Wire.read attached j = .ok a ↔ IsAttached j a :=
  read_attachedWithin_iff (Nat.le_refl _)

theorem read_deviceDetail_iff {j : Json} {detail : DeviceDetail} :
    Wire.read deviceDetail j = .ok detail ↔ IsDeviceDetail j detail := by
  refine Wire.read_record_iff.trans ?_
  simp only [seq_iff, map_iff, optional_text_iff, defaulted_list_iff, read_attached_iff]
  constructor
  · rintro ⟨hrecord, _, templates, ⟨_, description, ⟨name, hname, rfl⟩, hdescription, rfl⟩,
      htemplates, rfl⟩
    exact ⟨hrecord, hname, hdescription, htemplates⟩
  · rintro ⟨hrecord, hname, hdescription, htemplates⟩
    exact ⟨hrecord, _, _, ⟨_, _, ⟨_, hname, rfl⟩, hdescription, rfl⟩, htemplates, rfl⟩

end

/-! ## Lists -/

/-- An answer has these rows, under its one key. -/
structure HasRows {ρ : Type} (Row : Json → ρ → Prop) (answer : Json) (found : List ρ) : Prop where
  record : answer.IsRecord 1
  data : ∃ elements, answer.fieldValues 0 "data" = [.arr elements] ∧
    List.Forall₂ Row elements found

/-- What is read of an answer are the rows that it has. -/
theorem read_rows_iff {ρ : Type} {reader : Wire.Reader ρ} {Row : Json → ρ → Prop}
    (hreads : ∀ j row, Wire.read reader j = .ok row ↔ Row j row) {answer : Json} {found : List ρ} :
    Wire.read (rows reader) answer = .ok found ↔ HasRows Row answer found := by
  have hlist : ∀ value, Wire.read (Wire.list reader) value = .ok found ↔
      ∃ elements, value = .arr elements ∧ List.Forall₂ Row elements found := by
    intro value
    simp only [Wire.read_list_iff, hreads]
  rw [rows, Wire.read_record_iff, Wire.Row.required_iff]
  constructor
  · rintro ⟨hrecord, value, hvalue, hread⟩
    obtain ⟨elements, rfl, helements⟩ := (hlist value).mp hread
    exact ⟨hrecord, elements, hvalue, helements⟩
  · rintro ⟨hrecord, elements, hvalue, helements⟩
    exact ⟨hrecord, _, hvalue, (hlist _).mpr ⟨elements, rfl, helements⟩⟩

section

variable {α : Type} {reader : Wire.Reader α} {path : String} {answer : Json}

theorem decode_eq_ok_iff {a : α} :
    decode reader path answer = .ok a ↔ Wire.read reader answer = .ok a := by
  rw [decode]
  cases Wire.read reader answer with
  | ok b => exact ⟨fun h => congrArg _ (Except.ok.inj h), fun h => congrArg _ (Except.ok.inj h)⟩
  | error fault =>
    constructor
    · intro h
      cases h
    · intro h
      cases h

theorem exists_of_decode_eq_error {e : TransportError} (h : decode reader path answer = .error e) :
    ∃ fault, e = .malformed path fault answer := by
  rw [decode] at h
  cases hread : Wire.read reader answer with
  | ok a =>
    rw [hread] at h
    cases h
  | error fault =>
    rw [hread] at h
    exact ⟨_, (Except.error.inj h).symm⟩

end

/-! ## Entries -/

/-- What a row of a list gives. -/
inductive Entry where
  | object (o : LegacyObject)
  | device (t : DeviceTemplate)
  | failure (f : CollectFailure)

namespace Entry

/-- The object of a family. -/
def object? (category : Category) : Entry → Option LegacyObject
  | object o => if o.category = category then some o else none
  | device _ | failure _ => none

/-- The device template. -/
def device? : Entry → Option DeviceTemplate
  | device t => some t
  | object _ | failure _ => none

/-- The failure. -/
def failure? : Entry → Option CollectFailure
  | failure f => some f
  | object _ | device _ => none

/-- Puts an entry at the end of the list that it belongs to. -/
def addTo (t : CollectedTree) : Entry → CollectedTree
  | object o =>
    match o.category with
    | .featureTemplate => { t with featureTemplates := t.featureTemplates ++ [o] }
    | .policyList => { t with policyLists := t.policyLists ++ [o] }
    | .policyDefinition => { t with policyDefinitions := t.policyDefinitions ++ [o] }
  | device d => { t with deviceTemplates := t.deviceTemplates ++ [d] }
  | failure f => { t with failures := t.failures ++ [f] }

end Entry

/-- A complete tree of entries. -/
def treeOf (now : Instant) (entries : List Entry) : CollectedTree where
  collectedAt := now
  featureTemplates := entries.filterMap (Entry.object? .featureTemplate)
  deviceTemplates := entries.filterMap Entry.device?
  policyLists := entries.filterMap (Entry.object? .policyList)
  policyDefinitions := entries.filterMap (Entry.object? .policyDefinition)
  failures := entries.filterMap Entry.failure?
  cancelled := false

theorem addTo_treeOf (now : Instant) (entries : List Entry) (e : Entry) :
    e.addTo (treeOf now entries) = treeOf now (entries ++ [e]) := by
  cases e with
  | object o =>
    cases hcategory : o.category <;>
      simp [Entry.addTo, treeOf, Entry.object?, Entry.device?, Entry.failure?, hcategory]
  | device t => simp [Entry.addTo, treeOf, Entry.object?, Entry.device?, Entry.failure?]
  | failure f => simp [Entry.addTo, treeOf, Entry.object?, Entry.device?, Entry.failure?]

/-! ## Rows and their entries -/

/-- An object is that of a row: it has the id, the name, the description and the kind of the row,
    and this definition. -/
structure OfRow (row : Summary) (category : Category) (definition : Json) (o : LegacyObject) :
    Prop where
  id : o.id = row.id
  name : o.name = row.name
  description : o.description = row.description
  category : o.category = category
  kind : o.kind = row.kind
  definition : o.definition = definition

/-- A failure names what could not be read, and says why. -/
structure Blames (id name : String) (e : TransportError) (f : CollectFailure) : Prop where
  id : f.id = id
  name : f.name = name
  error : f.error = e.message

/-- What a row gives whose object is in an answer: the object, defined by a member of the answer or
    by all of it, or a failure. -/
def Gives (category : Category) (key : String) (row : Summary) :
    Except TransportError Json → Entry → Prop
  | .ok answer, .object o => OfRow row category ((answer.get? key).getD answer) o
  | .error e, .failure f => Blames row.id row.name e f
  | _, _ => False

/-- What the row of a feature template gives. -/
def GivesFeature : Summary → Except TransportError Json → Entry → Prop :=
  Gives .featureTemplate "templateDefinition"

/-- What the row of a route policy gives. -/
def GivesPolicy : Summary → Except TransportError Json → Entry → Prop :=
  Gives .policyDefinition "definition"

/-- What the row of a device template gives: the template, where the answer is the detail of one,
    or a failure. -/
def GivesDevice (row : DeviceSummary) : Except TransportError Json → Entry → Prop
  | .ok answer, .device t => ∃ detail, IsDeviceDetail answer detail ∧
      t.id = row.id ∧ t.name = row.name ∧
      t.description = row.description.or detail.description ∧ t.templates = detail.templates
  | .ok answer, .failure f => (∀ detail, ¬ IsDeviceDetail answer detail) ∧
      ∃ fault, Blames row.id row.name
        (.malformed ("/template/device/object/" ++ row.id) fault answer) f
  | .error e, .failure f => Blames row.id row.name e f
  | _, _ => False

/-- What the row of a policy list gives, which has all of the list. A row that is none is named by
    the texts that it has. -/
def GivesList (row : Json) : Entry → Prop
  | .object o => ∃ summary, IsPolicyRow "listId" row summary ∧ OfRow summary .policyList row o
  | .failure f => (∀ summary, ¬ IsPolicyRow "listId" row summary) ∧
      ∃ fault, Blames (((row.get? "listId").bind Json.text?).getD "")
        (((row.get? "name").bind Json.text?).getD "")
        (.malformed "/template/policy/list" fault row) f
  | .device _ => False

/-! ### Entries that are added -/

/-- The entry of a row whose object is in an answer. -/
def entryOf (category : Category) (key : String) (row : Summary) :
    Except TransportError Json → Entry
  | .ok answer => .object (row.object category (memberOr key answer))
  | .error e => .failure ⟨row.id, row.name, e.message⟩

/-- The entry of a device template. -/
def deviceEntry (row : DeviceSummary) (answer : Except TransportError Json) : Entry :=
  match answer.bind (decode deviceDetail (devicePath row)) with
  | .ok detail =>
    .device ⟨row.id, row.name, row.description.or detail.description, detail.templates⟩
  | .error e => .failure ⟨row.id, row.name, e.message⟩

/-- The entry of a policy list. -/
def listEntry (row : Json) : Entry :=
  match decode policyList policyLists row with
  | .ok summary => .object (summary.object .policyList row)
  | .error e => .failure ⟨textMember "listId" row, textMember "name" row, e.message⟩

theorem ofRow_object (row : Summary) (category : Category) (definition : Json) :
    OfRow row category definition (row.object category definition) :=
  ⟨rfl, rfl, rfl, rfl, rfl, rfl⟩

theorem gives_entryOf (category : Category) (key : String) (row : Summary)
    (answer : Except TransportError Json) :
    Gives category key row answer (entryOf category key row answer) := by
  cases answer with
  | ok answer => exact ofRow_object row _ _
  | error e => exact ⟨rfl, rfl, rfl⟩

theorem gives_deviceEntry (row : DeviceSummary) (answer : Except TransportError Json) :
    GivesDevice row answer (deviceEntry row answer) := by
  cases answer with
  | error e => exact ⟨rfl, rfl, rfl⟩
  | ok answer =>
    have hdecode : (Except.ok answer).bind (decode deviceDetail (devicePath row)) =
        decode deviceDetail (devicePath row) answer := rfl
    rw [deviceEntry, hdecode, decode]
    cases hread : Wire.read deviceDetail answer with
    | ok detail => exact ⟨detail, read_deviceDetail_iff.mp hread, rfl, rfl, rfl, rfl⟩
    | error fault =>
      refine ⟨fun detail hdetail => ?_, fault.message, rfl, rfl, rfl⟩
      cases hread.symm.trans (read_deviceDetail_iff.mpr hdetail)

theorem gives_listEntry (row : Json) : GivesList row (listEntry row) := by
  rw [listEntry, decode]
  cases hread : Wire.read policyList row with
  | ok summary => exact ⟨summary, read_policyRow_iff.mp hread, ofRow_object summary _ _⟩
  | error fault =>
    refine ⟨fun summary hrow => ?_, fault.message, rfl, rfl, rfl⟩
    cases hread.symm.trans (read_policyRow_iff.mpr hrow)

theorem addFeature_eq (t : CollectedTree) (row : Summary) (answer : Except TransportError Json) :
    addFeature t row answer =
      (entryOf .featureTemplate "templateDefinition" row answer).addTo t := by
  cases answer <;> rfl

theorem addDevice_eq (t : CollectedTree) (row : DeviceSummary)
    (answer : Except TransportError Json) :
    addDevice t row answer = (deviceEntry row answer).addTo t := by
  rw [addDevice, deviceEntry]
  cases answer.bind (decode deviceDetail (devicePath row)) <;> rfl

theorem addList_eq (t : CollectedTree) (row : Json) : addList t row = (listEntry row).addTo t := by
  rw [addList, listEntry]
  cases decode policyList policyLists row <;> rfl

theorem addPolicy_eq (t : CollectedTree) (row : Summary) (answer : Except TransportError Json) :
    addPolicy t row answer = (entryOf .policyDefinition "definition" row answer).addTo t := by
  cases answer <;> rfl

end Collection

end ProfileMigration
