/-
  ProfileMigration.Delivery.Rollback

  Taking a push back:

    RollbackReport      -- what was deleted, and what was not
    rollback            -- deletes the profiles of a push, newest first

  A profile that cannot be deleted is reported, and the others are still tried.

  This models `rollback_profiles`.
-/
import ProfileMigration.Delivery.Push

namespace ProfileMigration

/-- The outcome of taking a push back. -/
structure RollbackReport where
  deleted : List Uuid
  failed : List ProfileFailure
deriving DecidableEq

namespace RollbackReport

/-- Nothing deleted. -/
def empty : RollbackReport := ⟨[], []⟩

def toJson (r : RollbackReport) : Json :=
  .obj [("deleted", Wire.ofList (fun id : Uuid => .str id.text) r.deleted),
    ("failed", Wire.ofList ProfileFailure.toJson r.failed)]

end RollbackReport

variable {σ : Type}

/-- Deletes the profile of a report. -/
def deleteProfile (m : Manager σ) (done : RollbackReport × Session σ) (r : BuildReport) :
    RollbackReport × Session σ :=
  let (report, s) := done
  match m.ask (.delete r.profilePath) s with
  | (.ok _, s) => ({ report with deleted := report.deleted ++ [r.profileId] }, s)
  | (.error e, s) =>
    ({ report with failed := report.failed ++ [⟨r.profileName, r.profileType, e.message⟩] }, s)

/-- Deletes the profiles of a push, newest first. -/
def rollback (m : Manager σ) (pushed : PushResult) (s : Session σ) : RollbackReport × Session σ :=
  pushed.reports.reverse.foldl (deleteProfile m) (.empty, s)

end ProfileMigration
