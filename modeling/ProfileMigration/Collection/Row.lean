/-
  ProfileMigration.Collection.Row

  What the legacy lists of the manager hold:

    Summary             -- the row of an object: id, name, description and type
    DeviceSummary       -- the row of a device template
    DeviceDetail        -- a device template with what is attached to it
    rows                -- the rows of a list

  These are `DataResponse`, the summaries `FeatureTemplateSummary`, `PolicyListSummary` and
  `PolicyDefinitionSummary` as one type, `DeviceTemplateSummary`, `DeviceTemplateDetail` and
  `GeneralTemplate`.
-/
import ProfileMigration.Legacy.Tree

namespace ProfileMigration.Collection

/-- The row of a legacy object. -/
structure Summary where
  id : String
  name : String
  description : Option String
  kind : String
deriving DecidableEq

/-- The row of a device template. -/
structure DeviceSummary where
  id : String
  name : String
  description : Option String
  /-- How the template is written: `file` where it is one text of commands. -/
  form : Option String
deriving DecidableEq

/-- A device template with what is attached to it. -/
structure DeviceDetail where
  name : Option String
  description : Option String
  templates : List Attachment

/-- The object of a row, with its definition. -/
def Summary.object (s : Summary) (category : Category) (definition : Json) : LegacyObject :=
  ⟨s.id, s.name, s.description, category, s.kind, definition⟩

/-- Whether a device template is one text of commands, of which nothing can be read. -/
def DeviceSummary.isFile (s : DeviceSummary) : Bool := s.form = some "file"

/-! ## Reading -/

/-- The row of a feature template. -/
def featureTemplate : Wire.Reader Summary :=
  Wire.record "FeatureTemplateSummary" 4 fun row =>
    Summary.mk <$> row.required 0 "templateId" Wire.text
      <*> row.required 1 "templateName" Wire.text
      <*> row.optional 2 "templateDescription" Wire.text
      <*> row.required 3 "templateType" Wire.text

/-- The row of a policy, whose id has a key of its own in each of the two lists. -/
def policyRow (title idKey : String) : Wire.Reader Summary :=
  Wire.record title 4 fun row =>
    (fun id name kind description => Summary.mk id name description kind)
      <$> row.required 0 idKey Wire.text <*> row.required 1 "name" Wire.text
      <*> row.required 2 "type" Wire.text <*> row.optional 3 "description" Wire.text

/-- The row of a policy list. -/
def policyList : Wire.Reader Summary := policyRow "PolicyListSummary" "listId"

/-- The row of a policy definition. -/
def policyDefinition : Wire.Reader Summary := policyRow "PolicyDefinitionSummary" "definitionId"

/-- The row of a device template. -/
def deviceTemplate : Wire.Reader DeviceSummary :=
  Wire.record "DeviceTemplateSummary" 4 fun row =>
    DeviceSummary.mk <$> row.required 0 "templateId" Wire.text
      <*> row.required 1 "templateName" Wire.text
      <*> row.optional 2 "templateDescription" Wire.text
      <*> row.optional 3 "configType" Wire.text

/-- An attached template whose sub-templates nest at most so deep. -/
def attachedWithin : Nat → Wire.Reader Attachment
  | 0 => fun d => .error (.kind d "struct GeneralTemplate")
  | bound + 1 =>
    Wire.record "GeneralTemplate" 3 fun row =>
      Attachment.mk <$> row.required 0 "templateId" Wire.text
        <*> row.required 1 "templateType" Wire.text
        <*> row.defaulted 2 "subTemplates" (Wire.list (attachedWithin bound)) []

/-- An attached template. -/
def attached : Wire.Reader Attachment := fun d => attachedWithin d.depth d

/-- A device template with what is attached to it. -/
def deviceDetail : Wire.Reader DeviceDetail :=
  Wire.record "DeviceTemplateDetail" 3 fun row =>
    DeviceDetail.mk <$> row.optional 0 "templateName" Wire.text
      <*> row.optional 1 "templateDescription" Wire.text
      <*> row.defaulted 2 "generalTemplates" (Wire.list attached) []

/-- The rows of a list, which the manager keeps under `data`. -/
def rows {α : Type} (row : Wire.Reader α) : Wire.Reader (List α) :=
  Wire.record "DataResponse" 1 fun r => r.required 0 "data" (Wire.list row)

end ProfileMigration.Collection
