/-
  ProfileMigration.Template.Failure

  Why a legacy object cannot be converted:

    ConversionError             -- the causes
    ConversionError.deferred    -- whether converting another object first may help
    ConversionError.message     -- the words

  This models `ConversionError` with `is_deferred`.
-/
import ProfileMigration.Legacy.Category

namespace ProfileMigration

/-- Why a legacy object cannot be converted. -/
inductive ConversionError where
  /-- No conversion is known for the legacy type. -/
  | notConvertible (kind : String)
  | unsupported (field reason : String)
  | missing (field : String)
  /-- A truth value that is spelled in a way its field does not use. -/
  | ambiguous (field value : String)
  /-- The object referred to has not been converted yet. -/
  | unresolved (category : Category) (origin : String)
deriving DecidableEq

namespace ConversionError

/-- Whether converting another object first may help. -/
def deferred : ConversionError → Bool
  | unresolved .. => true
  | _ => false

/-- The words for a failure. -/
def message : ConversionError → String
  | notConvertible kind => "no converter for legacy type '" ++ kind ++ "'"
  | unsupported field reason => "unsupported value for '" ++ field ++ "': " ++ reason
  | missing field => "required field '" ++ field ++ "' is missing"
  | ambiguous field value => "ambiguous value '" ++ value ++ "' for '" ++ field ++ "'"
  | unresolved category origin => category.text ++ " '" ++ origin ++ "' is not converted yet"

end ConversionError

/-- The outcome of converting something. -/
abbrev Converted := Except ConversionError

end ProfileMigration
