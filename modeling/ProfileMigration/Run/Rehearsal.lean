/-
  ProfileMigration.Run.Rehearsal

  Runs against a script instead of a manager:

    Stage               -- one of the four stages
    Command             -- a stage, or all of them in one go
    Workbook            -- the script, the results to start from, and the time
    Workbook.ofDocument -- a workbook as it is written
    Rehearsal           -- what was done: the run, the session, and a result for each stage
    rehearse            -- commands in order, until one fails

  `Command` has the commands of `Cli`, and `rehearse` does what `main` does for each of them, in one
  run that keeps its results.
-/
import ProfileMigration.Manager.Script
import ProfileMigration.Run.Runner

namespace ProfileMigration

/-- A stage of a run. -/
inductive Stage where
  | collect
  | transform
  | push
  | rollback
deriving DecidableEq, Repr

/-- A stage, or all of them in one go. -/
inductive Command where
  | stage (s : Stage)
  /-- Collects, transforms and pushes; takes an unclean push back if asked to. -/
  | run (rollbackOnFailure : Bool)
deriving DecidableEq, Repr

/-- The command of a word. -/
def Command.ofWord? : String → Option Command
  | "collect" => some (.stage .collect)
  | "transform" => some (.stage .transform)
  | "push" => some (.stage .push)
  | "rollback" => some (.stage .rollback)
  | "run" => some (.run false)
  | "run-or-rollback" => some (.run true)
  | _ => none

/-- The commands of a command line, at least one. -/
def Command.ofWords? : List String → Option (List Command)
  | [] => none
  | words => words.mapM ofWord?

/-- What a rehearsal starts from. -/
structure Workbook where
  script : Script
  collected : Option CollectedTree
  transformed : Option TransformResult
  pushed : Option PushResult
  now : Instant

namespace Workbook

/-- Reads a workbook; every part may be left out. -/
def ofDocument : Wire.Reader Workbook :=
  Wire.record "Workbook" 5 fun row =>
    Workbook.mk <$> row.defaulted 0 "script" (fun d => (Wire.json d).map Script.ofJson) ⟨[], []⟩
      <*> row.optional 1 "collected" CollectedTree.ofDocument
      <*> row.optional 2 "transformed" TransformResult.ofDocument
      <*> row.optional 3 "pushed" PushResult.ofDocument
      <*> row.defaulted 4 "now" Wire.instant ⟨0, 0⟩

/-- The run that a workbook starts from. -/
def runner (w : Workbook) (mark : String) : Runner :=
  ⟨mark, w.collected, w.transformed, w.pushed⟩

end Workbook

/-- What was done so far. -/
structure Rehearsal where
  runner : Runner
  session : Session Script.Rehearsal
  /-- The result of each stage, in order. -/
  results : List Json

namespace Rehearsal

/-- What follows a stage: its result is kept. -/
def keep {α : Type} (write : α → Json) (r : Rehearsal)
    (done : Except MigrationError α × Runner × Session Script.Rehearsal) :
    Except String Unit × Rehearsal :=
  match done with
  | (.ok a, runner, session) => (.ok (), ⟨runner, session, r.results ++ [write a]⟩)
  | (.error e, runner, session) => (.error e.message, ⟨runner, session, r.results⟩)

/-- Whether the last push created everything. -/
def pushIsClean (r : Rehearsal) : Bool :=
  match r.runner.pushed with
  | some p => p.failures.isEmpty && p.reports.all BuildReport.isClean
  | none => true

/-- Whether the collected tree is incomplete. -/
def isInterrupted (r : Rehearsal) : Bool := (r.runner.collected.map (·.cancelled)).getD false

/-- One stage. -/
def stage (w : Workbook) (r : Rehearsal) : Stage → Except String Unit × Rehearsal
  | .collect =>
    keep CollectedTree.toJson r (r.runner.collect w.script.manager w.now r.session)
  | .transform =>
    let (result, runner) := r.runner.transform
    keep TransformResult.toJson r (result, runner, r.session)
  | .push => keep PushResult.toJson r (r.runner.push w.script.manager r.session)
  | .rollback => keep RollbackReport.toJson r (r.runner.rollback w.script.manager r.session)

/-- Stages in order, until one fails or the collected tree is incomplete. -/
def stages (w : Workbook) : List Stage → Rehearsal → Except String Unit × Rehearsal
  | [], r => (.ok (), r)
  | stage :: rest, r =>
    match r.stage w stage with
    | (.error e, r) => (.error e, r)
    | (.ok (), r) => if r.isInterrupted then (.ok (), r) else stages w rest r

/-- One command. -/
def perform (w : Workbook) (r : Rehearsal) : Command → Except String Unit × Rehearsal
  | .run rollbackOnFailure =>
    match stages w [.collect, .transform, .push] r with
    | (.error e, r) => (.error e, r)
    | (.ok (), r) =>
      if rollbackOnFailure && !r.pushIsClean then r.stage w .rollback else (.ok (), r)
  | .stage stage => r.stage w stage

/-- Commands in order, until one fails. -/
def performAll (w : Workbook) : List Command → Rehearsal → Except String Unit × Rehearsal
  | [], r => (.ok (), r)
  | c :: rest, r =>
    match r.perform w c with
    | (.error e, r) => (.error e, r)
    | (.ok (), r) => performAll w rest r

/-- The written form: the results and the calls. -/
def toJson (r : Rehearsal) : Json :=
  .obj [("results", .arr r.results), ("calls", .arr (r.session.calls.map callJson))]
where
  /-- The written form of a call. -/
  callJson (c : Call) : Json :=
    .obj ([("method", .str c.method.text), ("path", .str c.path)] ++ Wire.member? "body" c.body)

end Rehearsal

/-- Performs commands on the text of a workbook: the text of what was done, and why the last
    command failed if it did. -/
def rehearse (commands : List Command) (mark text : String) :
    Except String (String × Option String) :=
  match (Document.ofText? text).map Workbook.ofDocument with
  | none => .error "the workbook is not JSON"
  | some (.error fault) => .error ("the workbook cannot be read: " ++ fault.message)
  | some (.ok w) =>
    let start : Rehearsal := ⟨w.runner mark, .start (.start w.script), []⟩
    let (outcome, r) := Rehearsal.performAll w commands start
    .ok (r.toJson.pretty, match outcome with
      | .ok () => none
      | .error e => some e)

end ProfileMigration
