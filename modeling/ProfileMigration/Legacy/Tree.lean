/-
  ProfileMigration.Legacy.Tree

  What is read from the legacy side, and its wire form:

    LegacyObject        -- one loosely typed configuration object
    Attachment          -- a feature template of a device template, with its sub-templates
    DeviceTemplate      -- the feature templates of one class of devices
    CollectFailure      -- an object whose detail could not be read
    CollectedTree       -- everything read in one run
    CollectedTree.objects -- all objects to convert, in order

  This models `LegacyObject`, `TemplateAttachment`, `DeviceTemplate`, `CollectFailure` and
  `CollectedTree` with `objects`.
-/
import ProfileMigration.Legacy.Category
import ProfileMigration.Wire.Record

namespace ProfileMigration

/-- One loosely typed legacy object. -/
structure LegacyObject where
  id : String
  name : String
  description : Option String
  category : Category
  /-- The legacy type, such as `cisco_bgp` or `dataPrefix`. -/
  kind : String
  definition : Json
deriving DecidableEq

/-- A feature template attached to a device template, with its sub-templates. -/
structure Attachment where
  templateId : String
  templateType : String
  subTemplates : List Attachment

/-- The feature templates of one class of devices. -/
structure DeviceTemplate where
  id : String
  name : String
  description : Option String
  templates : List Attachment

/-- A legacy object whose detail could not be read. -/
structure CollectFailure where
  id : String
  name : String
  error : String
deriving DecidableEq

/-- Everything read from the legacy side in one run. -/
structure CollectedTree where
  collectedAt : Instant
  featureTemplates : List LegacyObject
  deviceTemplates : List DeviceTemplate
  policyLists : List LegacyObject
  policyDefinitions : List LegacyObject
  failures : List CollectFailure
  /-- Collection was interrupted; the tree is incomplete. -/
  cancelled : Bool

namespace Category

/-- Reads the name of a family. -/
def ofDocument : Wire.Reader Category := Wire.name "a category" ofText?

end Category

namespace LegacyObject

def toJson (o : LegacyObject) : Json :=
  .obj ([("id", .str o.id), ("name", .str o.name)] ++
    Wire.member? "description" (o.description.map .str) ++
    [("category", .str o.category.text), ("kind", .str o.kind), ("definition", o.definition)])

def ofDocument : Wire.Reader LegacyObject :=
  Wire.record "LegacyObject" 6 fun row =>
    LegacyObject.mk <$> row.required 0 "id" Wire.text <*> row.required 1 "name" Wire.text
      <*> row.optional 2 "description" Wire.text <*> row.required 3 "category" Category.ofDocument
      <*> row.required 4 "kind" Wire.text <*> row.required 5 "definition" Wire.json

end LegacyObject

namespace Attachment

mutual

def toJson : Attachment → Json
  | ⟨templateId, templateType, subTemplates⟩ =>
    .obj ([("template_id", .str templateId), ("template_type", .str templateType)] ++
      match subTemplates with
      | [] => []
      | first :: rest => [("sub_templates", .arr (toJson first :: toJsons rest))])

/-- The wire forms of several attachments. -/
def toJsons : List Attachment → List Json
  | [] => []
  | a :: rest => toJson a :: toJsons rest

end

/-- Reads an attachment whose sub-templates nest at most so deep. -/
def reader : Nat → Wire.Reader Attachment
  | 0 => fun d => .error (.kind d "struct Attachment")
  | bound + 1 =>
    Wire.record "Attachment" 3 fun row =>
      Attachment.mk <$> row.required 0 "template_id" Wire.text
        <*> row.required 1 "template_type" Wire.text
        <*> row.defaulted 2 "sub_templates" (Wire.list (reader bound)) []

def ofDocument : Wire.Reader Attachment := fun d => reader d.depth d

end Attachment

namespace DeviceTemplate

def toJson (t : DeviceTemplate) : Json :=
  .obj ([("id", .str t.id), ("name", .str t.name)] ++
    Wire.member? "description" (t.description.map .str) ++
    [("templates", Wire.ofList Attachment.toJson t.templates)])

def ofDocument : Wire.Reader DeviceTemplate :=
  Wire.record "DeviceTemplate" 4 fun row =>
    DeviceTemplate.mk <$> row.required 0 "id" Wire.text <*> row.required 1 "name" Wire.text
      <*> row.optional 2 "description" Wire.text
      <*> row.required 3 "templates" (Wire.list Attachment.ofDocument)

end DeviceTemplate

namespace CollectFailure

def toJson (f : CollectFailure) : Json :=
  .obj [("id", .str f.id), ("name", .str f.name), ("error", .str f.error)]

def ofDocument : Wire.Reader CollectFailure :=
  Wire.record "CollectFailure" 3 fun row =>
    CollectFailure.mk <$> row.required 0 "id" Wire.text <*> row.required 1 "name" Wire.text
      <*> row.required 2 "error" Wire.text

end CollectFailure

namespace CollectedTree

/-- A tree with nothing in it yet. -/
def empty (now : Instant) : CollectedTree := ⟨now, [], [], [], [], [], false⟩

/-- All objects to convert, in collected order; objects may refer to later ones. -/
def objects (t : CollectedTree) : List LegacyObject :=
  t.featureTemplates ++ t.policyLists ++ t.policyDefinitions

def toJson (t : CollectedTree) : Json :=
  .obj ([("collected_at", .str t.collectedAt.text),
      ("feature_templates", Wire.ofList LegacyObject.toJson t.featureTemplates),
      ("device_templates", Wire.ofList DeviceTemplate.toJson t.deviceTemplates),
      ("policy_lists", Wire.ofList LegacyObject.toJson t.policyLists),
      ("policy_definitions", Wire.ofList LegacyObject.toJson t.policyDefinitions)] ++
    Wire.listMember? "failures" CollectFailure.toJson t.failures ++
    [("cancelled", .bool t.cancelled)])

def ofDocument : Wire.Reader CollectedTree :=
  Wire.record "CollectedTree" 7 fun row =>
    CollectedTree.mk <$> row.required 0 "collected_at" Wire.instant
      <*> row.defaulted 1 "feature_templates" (Wire.list LegacyObject.ofDocument) []
      <*> row.defaulted 2 "device_templates" (Wire.list DeviceTemplate.ofDocument) []
      <*> row.defaulted 3 "policy_lists" (Wire.list LegacyObject.ofDocument) []
      <*> row.defaulted 4 "policy_definitions" (Wire.list LegacyObject.ofDocument) []
      <*> row.defaulted 5 "failures" (Wire.list CollectFailure.ofDocument) []
      <*> row.defaulted 6 "cancelled" Wire.bool false

end CollectedTree

end ProfileMigration
