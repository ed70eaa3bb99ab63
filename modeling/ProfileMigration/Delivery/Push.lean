/-
  ProfileMigration.Delivery.Push

  Creating the planned profiles on the manager:

    ProfileFailure      -- a profile that could not be created or deleted
    PushResult          -- the reports and failures of a push, in plan order
    ProfilePlan.draft   -- a plan as a draft, children tied to their parents by tags
    Push.profile        -- one plan
    Push.run            -- plans in order, until the run is to stop
    deliver             -- all plans of a transform, shared profile first
    push                -- what that has come to

  Only what the shared profile creates is known to the other profiles.

  `ProfilePlan.draft` with `Draft.build` models `build_profile`; `deliver` models `push_profiles`,
  and `Push.profile` what that does with one plan.
-/
import ProfileMigration.Build.Draft
import ProfileMigration.Plan.Basic

namespace ProfileMigration

/-- A profile that could not be created or deleted. -/
structure ProfileFailure where
  name : String
  type : ProfileType
  error : String
deriving DecidableEq

/-- The outcome of a push. -/
structure PushResult where
  /-- The reports of created profiles, in order of creation. -/
  reports : List BuildReport
  failures : List ProfileFailure
  /-- Some plans were not started. -/
  cancelled : Bool
deriving DecidableEq

namespace ProfileFailure

def toJson (f : ProfileFailure) : Json :=
  .obj [("name", .str f.name), ("profile_type", f.type.toJson), ("error", .str f.error)]

def ofDocument : Wire.Reader ProfileFailure :=
  Wire.record "ProfileFailure" 3 fun row =>
    ProfileFailure.mk <$> row.required 0 "name" Wire.text
      <*> row.required 1 "profile_type" ProfileType.ofDocument <*> row.required 2 "error" Wire.text

end ProfileFailure

namespace PushResult

/-- Nothing pushed. -/
def empty : PushResult := ⟨[], [], false⟩

def toJson (r : PushResult) : Json :=
  .obj [("reports", Wire.ofList BuildReport.toJson r.reports),
    ("failures", Wire.ofList ProfileFailure.toJson r.failures),
    ("cancelled", .bool r.cancelled)]

def ofDocument : Wire.Reader PushResult :=
  Wire.record "PushResult" 3 fun row =>
    PushResult.mk <$> row.required 0 "reports" (Wire.list BuildReport.ofDocument)
      <*> row.required 1 "failures" (Wire.list ProfileFailure.ofDocument)
      <*> row.defaulted 2 "cancelled" Wire.bool false

end PushResult

/-! ## Plans as drafts -/

namespace ProfilePlan

/-- The name and description of a plan. -/
def header (p : ProfilePlan) : ProfileHeader := ⟨p.name, p.description⟩

/-- The parents of a plan with their tags: the generated identifier, or the place. -/
def tagged (p : ProfilePlan) : List (Tag × ParentPlan) :=
  p.parents.zipIdx.map fun (parent, n) =>
    (match parent.parcel.id with
      | some id => .id id
      | none => .place n, parent)

/-- A plan as a draft. -/
def draft (p : ProfilePlan) (ids : RemoteIds) : Draft where
  type := p.type
  header := some p.header
  remoteIds := ids
  parcels := p.parcels
  parents := p.tagged.map fun (tag, parent) => (tag, parent.parcel)
  children := p.tagged.flatMap fun (tag, parent) => parent.children.map fun c => (tag, c)

end ProfilePlan

/-! ## The push -/

/-- A push that is under way. -/
structure Push (σ : Type) where
  session : Session σ
  /-- What the shared profile created. -/
  ids : RemoteIds
  result : PushResult

namespace Push

variable {σ : Type}

/-- Creates one profile. A profile that cannot be created is reported, and others go on; any other
    error is one of the whole push. -/
def profile (m : Manager σ) (shared : Bool) (plan : ProfilePlan) (p : Push σ) :
    Except MigrationError Unit × Push σ :=
  match (plan.draft p.ids).build m p.session with
  | (.error (.transport e), session) =>
    (.ok (), { p with
      session := session
      result :=
        { p.result with failures := p.result.failures ++ [⟨plan.name, plan.type, e.message⟩] } })
  | (.error e, session) => (.error e, { p with session := session })
  | (.ok report, session) =>
    -- What a profile of its own creates stays unknown to the others
    (.ok (), ⟨session, if shared then report.remoteIds.overlay p.ids else p.ids,
      { p.result with reports := p.result.reports ++ [report] }⟩)

/-- Creates profiles in order, and starts none once the run is to stop. -/
def run (m : Manager σ) :
    List (Bool × ProfilePlan) → Push σ → Except MigrationError Unit × Push σ
  | [], p => (.ok (), p)
  | (shared, plan) :: rest, p =>
    if m.stopped p.session.state then
      (.ok (), { p with result := { p.result with cancelled := true } })
    else
      match p.profile m shared plan with
      | (.error e, p) => (.error e, p)
      | (.ok (), p) => run m rest p

end Push

/-- The plans of a transform with whether their identifiers are shared, in order. -/
def TransformResult.ordered (r : TransformResult) : List (Bool × ProfilePlan) :=
  r.policyObjects.toList.map (true, ·) ++ r.profiles.map (false, ·)

section

variable {σ : Type}

/-- Creates every planned profile, the shared one first. -/
def deliver (m : Manager σ) (plans : TransformResult) (s : Session σ) :
    Except MigrationError PushResult × Session σ :=
  match Push.run m plans.ordered ⟨s, [], .empty⟩ with
  | (.error e, p) => (.error e, p.session)
  | (.ok (), p) => (.ok p.result, p.session)

/-- What has been pushed when that is over, whichever way it ends. -/
def push (m : Manager σ) (plans : TransformResult) (s : Session σ) : PushResult × Session σ :=
  let p := (Push.run m plans.ordered ⟨s, [], .empty⟩).2
  (p.result, p.session)

end

end ProfileMigration
