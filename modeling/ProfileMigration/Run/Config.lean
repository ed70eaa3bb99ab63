/-
  ProfileMigration.Run.Config

  The settings of a run, from the environment:

    Config              -- manager, token, time limit, artifact directory, profile mark
    Config.load         -- from variables, each with a default

  This models `Config` with `load` and `get_env`.
-/
import ProfileMigration.Text.Integer

namespace ProfileMigration

/-- The settings of a run. -/
structure Config where
  managerUrl : String
  managerToken : String
  /-- How long a call may take, in seconds. -/
  timeout : Nat
  artifactsDir : String
  /-- What the names of created profiles begin with. -/
  profileMark : String
deriving DecidableEq

namespace Config

/-- The time limit where none is given. -/
def defaultTimeout : Nat := 30

/-- The variables that settings come from. -/
def names : List String :=
  ["MANAGER_URL", "MANAGER_TOKEN", "HTTP_TIMEOUT_SECS", "ARTIFACTS_DIR", "PROFILE_PREFIX"]

/-- Reads the settings; a time limit that is no 64-bit number counts as not given. -/
def load (value? : String → Option String) : Config where
  managerUrl := (value? "MANAGER_URL").getD "https://localhost:8443"
  managerToken := (value? "MANAGER_TOKEN").getD ""
  timeout := ((value? "HTTP_TIMEOUT_SECS").bind Text.toNat64?).getD defaultTimeout
  artifactsDir := (value? "ARTIFACTS_DIR").getD "./migration"
  profileMark := (value? "PROFILE_PREFIX").getD ""

end Config

end ProfileMigration
