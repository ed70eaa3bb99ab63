/-
  ProfileMigration.Manager.Failure

  Why a step of a run fails:

    Misuse          -- a step that comes out of turn
    MigrationError  -- that, or a call that failed
    Misuse.message / MigrationError.message -- the words

  This models `MigrateError`; `Misuse` has the contract errors that the stages and a build raise.
-/
import ProfileMigration.Manager.Call

namespace ProfileMigration

/-- A step of a run that comes out of turn. -/
inductive Misuse where
  | draftWithoutName
  | nothingToTransform
  | collectionIncomplete
  | nothingToPush
  | nothingToRollBack
deriving DecidableEq, Repr

/-- The words for a step out of turn. -/
def Misuse.message : Misuse → String
  | draftWithoutName => "profile metadata must be added before build"
  | nothingToTransform => "transform requires a collected tree"
  | collectionIncomplete => "collection was cancelled; collect again"
  | nothingToPush => "push requires a transform result"
  | nothingToRollBack => "rollback requires a push result"

/-- Why a step of a run failed. -/
inductive MigrationError where
  /-- A call failed. -/
  | transport (e : TransportError)
  /-- The step came out of turn. -/
  | misuse (m : Misuse)
deriving DecidableEq

/-- The words for a failed step. -/
def MigrationError.message : MigrationError → String
  | transport e => e.message
  | misuse m => "contract violation: " ++ m.message

end ProfileMigration
