/-
  ProfileMigration.Proofs.Legacy.Reread

  Collections read back from their wire form:

    LegacyObject.ofDocument_toJson  -- an object with its definition, whatever that holds
    Attachment.reader_toJson        -- an attachment and all below it
    DeviceTemplate.ofDocument_toJson
    CollectedTree.ofDocument_toJson -- a collection, and the time it was made at

  A definition is a value like any other, and no part of it is taken for the object it stands in.
-/
import ProfileMigration.Legacy.Tree
import ProfileMigration.Proofs.Time.InstantText
import ProfileMigration.Proofs.Wire.Record

namespace ProfileMigration

open Wire.Gathered (map_ok seq_ok)

/-! ## Objects -/

theorem LegacyObject.ofDocument_toJson {o : LegacyObject}
    (h : o.definition.canonical = o.definition) : Wire.read ofDocument o.toJson = .ok o := by
  refine Wire.record_written
    (a := LegacyObject.mk o.id o.name o.description o.category o.kind o.definition)
    (seq_ok (seq_ok (seq_ok (seq_ok (seq_ok (map_ok ?id) ?name) ?description) ?category) ?kind)
      ?definition)
  case id => exact Wire.Row.required_written (j := .str o.id) (by simp) rfl
  case name => exact Wire.Row.required_written (j := .str o.name) (by simp) rfl
  case description => exact Wire.Row.optional_written (by simp) fun s _ => rfl
  case category =>
    exact Wire.Row.required_written (j := .str o.category.text) (by simp)
      (Wire.name_written o.category.ofText?_text)
  case kind => exact Wire.Row.required_written (j := .str o.kind) (by simp) rfl
  case definition => exact Wire.Row.required_written (by simp) (Wire.json_written h)

/-! ## Attachments -/

namespace Attachment

theorem toJsons_eq_map (attachments : List Attachment) :
    toJsons attachments = attachments.map toJson := by
  induction attachments with
  | nil => rfl
  | cons a rest ih => rw [toJsons, ih, List.map_cons]

theorem toJson_eq (a : Attachment) :
    a.toJson = .obj ([("template_id", .str a.templateId), ("template_type", .str a.templateType)] ++
      Wire.listMember? "sub_templates" toJson a.subTemplates) := by
  obtain ⟨templateId, templateType, subTemplates⟩ := a
  cases subTemplates with
  | nil => rw [toJson]; rfl
  | cons first rest =>
    rw [toJson, toJsons_eq_map]
    rfl

/-- What is attached below nests less deep. -/
theorem depth_subTemplates (a : Attachment) :
    Document.depthList (Document.ofElements (toJsons a.subTemplates)) <
      (Document.ofJson a.toJson).depth := by
  rw [toJson_eq, toJsons_eq_map]
  cases a.subTemplates with
  | nil => exact Nat.succ_pos _
  | cons first rest =>
    have hwritten : Wire.listMember? "sub_templates" toJson (first :: rest) =
        [("sub_templates", .arr ((first :: rest).map toJson))] := rfl
    rw [hwritten]
    simp only [List.cons_append, List.nil_append, Document.ofJson, Document.ofJsonMembers,
      Document.depth, Document.depthMembers]
    omega

mutual

/-- An attachment and all below it read back, if that nests no deeper than is read. -/
theorem reader_toJson : (a : Attachment) → {bound : Nat} →
    (Document.ofJson a.toJson).depth ≤ bound → Wire.read (reader bound) a.toJson = .ok a
  | ⟨templateId, templateType, subTemplates⟩, bound, h => by
    have hbelow := depth_subTemplates ⟨templateId, templateType, subTemplates⟩
    obtain ⟨n, rfl⟩ : ∃ n, bound = n + 1 := ⟨bound - 1, by omega⟩
    have hread := readers_toJson subTemplates (Nat.le_of_lt_succ (hbelow.trans_le h))
    rw [toJson_eq, reader]
    refine Wire.record_written (a := Attachment.mk templateId templateType subTemplates)
      (seq_ok (seq_ok (map_ok ?id) ?type) ?subTemplates)
    case id => exact Wire.Row.required_written (j := .str templateId) (by simp) rfl
    case type => exact Wire.Row.required_written (j := .str templateType) (by simp) rfl
    case subTemplates => exact Wire.Row.defaulted_listMember (by simp) hread

theorem readers_toJson : (attachments : List Attachment) → {bound : Nat} →
    Document.depthList (Document.ofElements (toJsons attachments)) ≤ bound →
      ∀ a ∈ attachments, Wire.read (reader bound) a.toJson = .ok a
  | [], _, _ => List.forall_mem_nil _
  | a :: rest, bound, h => by
    rw [toJsons, Document.ofElements, Document.depthList] at h
    exact List.forall_mem_cons.mpr
      ⟨reader_toJson a (by omega), readers_toJson rest (by omega)⟩

end

theorem ofDocument_toJson (a : Attachment) : Wire.read ofDocument a.toJson = .ok a :=
  a.reader_toJson (Nat.le_refl _)

end Attachment

theorem DeviceTemplate.ofDocument_toJson (t : DeviceTemplate) :
    Wire.read ofDocument t.toJson = .ok t := by
  refine Wire.record_written (a := DeviceTemplate.mk t.id t.name t.description t.templates)
    (seq_ok (seq_ok (seq_ok (map_ok ?id) ?name) ?description) ?templates)
  case id => exact Wire.Row.required_written (j := .str t.id) (by simp) rfl
  case name => exact Wire.Row.required_written (j := .str t.name) (by simp) rfl
  case description => exact Wire.Row.optional_written (by simp) fun s _ => rfl
  case templates =>
    exact Wire.Row.required_written (by simp)
      (Wire.list_written_self fun a _ => a.ofDocument_toJson)

/-! ## Collections -/

theorem CollectFailure.ofDocument_toJson (f : CollectFailure) :
    Wire.read ofDocument f.toJson = .ok f := by
  refine Wire.record_written (a := CollectFailure.mk f.id f.name f.error)
    (seq_ok (seq_ok (map_ok ?id) ?name) ?error)
  case id => exact Wire.Row.required_written (j := .str f.id) (by simp) rfl
  case name => exact Wire.Row.required_written (j := .str f.name) (by simp) rfl
  case error => exact Wire.Row.required_written (j := .str f.error) (by simp) rfl

namespace CollectedTree

/-- A collection reads back from its wire form; of the time it was made at, its text reads back. -/
theorem ofDocument_toJson {t : CollectedTree} (hinstant : t.collectedAt.isValid = true)
    (hcanonical : ∀ o ∈ t.objects, o.definition.canonical = o.definition) :
    Wire.read ofDocument t.toJson = .ok { t with collectedAt := t.collectedAt.settled } := by
  rw [objects] at hcanonical
  obtain ⟨hfront, hdefinitions⟩ := List.forall_mem_append.mp hcanonical
  obtain ⟨hfeatures, hlists⟩ := List.forall_mem_append.mp hfront
  have hobjects : ∀ {objects : List LegacyObject},
      (∀ o ∈ objects, o.definition.canonical = o.definition) →
        Wire.read (Wire.list LegacyObject.ofDocument) (Wire.ofList LegacyObject.toJson objects) =
          .ok objects :=
    fun h => Wire.list_written_self fun o ho => LegacyObject.ofDocument_toJson (h o ho)
  refine Wire.record_written
    (a := CollectedTree.mk t.collectedAt.settled t.featureTemplates t.deviceTemplates t.policyLists
      t.policyDefinitions t.failures t.cancelled)
    (seq_ok (seq_ok (seq_ok (seq_ok (seq_ok (seq_ok (map_ok ?instant) ?features) ?devices) ?lists)
      ?definitions) ?failures) ?cancelled)
  case instant =>
    exact Wire.Row.required_written (by simp)
      (Wire.textOf_written (Instant.ofText?_text hinstant))
  case features => exact Wire.Row.defaulted_written (by simp) (hobjects hfeatures)
  case devices =>
    exact Wire.Row.defaulted_written (by simp)
      (Wire.list_written_self fun d _ => d.ofDocument_toJson)
  case lists => exact Wire.Row.defaulted_written (by simp) (hobjects hlists)
  case definitions => exact Wire.Row.defaulted_written (by simp) (hobjects hdefinitions)
  case failures =>
    exact Wire.Row.defaulted_listMember (by simp) fun f _ => f.ofDocument_toJson
  case cancelled => exact Wire.Row.defaulted_written (j := .bool t.cancelled) (by simp) rfl

end CollectedTree

end ProfileMigration
