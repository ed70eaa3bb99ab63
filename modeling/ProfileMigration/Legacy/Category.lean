/-
  ProfileMigration.Legacy.Category

  The families of legacy objects:

    Category                -- feature templates, policy lists, policy definitions
    Category.text / ofText? -- their names

  This models `LegacyCategory` and its display.
-/

namespace ProfileMigration

/-- A family of legacy objects. -/
inductive Category where
  | featureTemplate
  | policyList
  | policyDefinition
deriving DecidableEq, Repr

namespace Category

/-- The name of a family. -/
def text : Category → String
  | featureTemplate => "feature_template"
  | policyList => "policy_list"
  | policyDefinition => "policy_definition"

/-- The family of a name. -/
def ofText? (s : String) : Option Category :=
  if s = "feature_template" then some featureTemplate
  else if s = "policy_list" then some policyList
  else if s = "policy_definition" then some policyDefinition
  else none

theorem ofText?_text (c : Category) : ofText? c.text = some c := by
  cases c <;> simp [text, ofText?]

end Category

end ProfileMigration
