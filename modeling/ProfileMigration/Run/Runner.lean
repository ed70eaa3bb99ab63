/-
  ProfileMigration.Run.Runner

  A run from collecting to pushing, and back:

    Runner              -- the results of the stages so far
    Runner.collect      -- reads the legacy configuration
    Runner.transform    -- plans the profiles
    Runner.push         -- creates them
    Runner.rollback     -- deletes what the last push created
    Runner.text         -- a result as the text of its file
    Runner.save / loaded -- results in a folder

  Each stage needs the result of the one before it, and replaces only its own. A stage that
  fails changes nothing.

  This models `MigrationRunner`: the four stages, and `save_collected` and the others that write
  their results.
-/
import ProfileMigration.Collection.Reading
import ProfileMigration.Delivery.Rollback
import ProfileMigration.Plan.Transform
import ProfileMigration.Run.Artifact

namespace ProfileMigration

/-- The results of the stages so far. -/
structure Runner where
  /-- What the names of created profiles begin with. -/
  mark : String
  collected : Option CollectedTree
  transformed : Option TransformResult
  pushed : Option PushResult

namespace Runner

variable {σ : Type}

/-- Nothing done yet. -/
def start (mark : String) : Runner := ⟨mark, none, none, none⟩

/-! ## Stages -/

/-- Reads the legacy configuration. -/
def collect (m : Manager σ) (now : Instant) (r : Runner) (s : Session σ) :
    Except MigrationError CollectedTree × Runner × Session σ :=
  match ProfileMigration.collect m now s with
  | (.error e, s) => (.error (.transport e), r, s)
  | (.ok tree, s) => (.ok tree, { r with collected := some tree }, s)

/-- Plans the profiles; an incomplete tree is refused. -/
def transform (r : Runner) : Except MigrationError TransformResult × Runner :=
  match r.collected with
  | none => (.error (.misuse .nothingToTransform), r)
  | some tree =>
    if tree.cancelled then (.error (.misuse .collectionIncomplete), r)
    else
      let (result, _) := ProfileMigration.transform tree .empty r.mark
      (.ok result, { r with transformed := some result })

/-- Creates the planned profiles. -/
def push (m : Manager σ) (r : Runner) (s : Session σ) :
    Except MigrationError PushResult × Runner × Session σ :=
  match r.transformed with
  | none => (.error (.misuse .nothingToPush), r, s)
  | some plans =>
    match deliver m plans s with
    | (.error e, s) => (.error e, r, s)
    | (.ok result, s) => (.ok result, { r with pushed := some result }, s)

/-- Deletes what the last push created, and forgets that push. -/
def rollback (m : Manager σ) (r : Runner) (s : Session σ) :
    Except MigrationError RollbackReport × Runner × Session σ :=
  match r.pushed with
  | none => (.error (.misuse .nothingToRollBack), r, s)
  | some pushed =>
    let (report, s) := ProfileMigration.rollback m pushed s
    (.ok report, { r with pushed := none }, s)

/-! ## Artifacts -/

/-- The text of a result's file. -/
def text (r : Runner) : Artifact → Except ArtifactError String
  | .collected => written .collected (r.collected.map CollectedTree.toJson)
  | .transformed => written .transformed (r.transformed.map TransformResult.toJson)
  | .pushed => written .pushed (r.pushed.map PushResult.toJson)
where
  /-- The text of a wire form, if there is one. -/
  written (a : Artifact) : Option Json → Except ArtifactError String
    | some j => .ok j.pretty
    | none => .error (.absent a)

/-- Writes a result to a directory: its path, and the folder after it. -/
def save (r : Runner) (a : Artifact) (directory : String) (f : Folder) :
    Except ArtifactError String × Folder :=
  match r.text a with
  | .error e => (.error e, f)
  | .ok text => a.save text directory f

/-- Takes a result from a directory. -/
def loaded (r : Runner) (a : Artifact) (directory : String) (f : Folder) :
    Except ArtifactError Runner :=
  match a with
  | .collected =>
    (Artifact.collected.load CollectedTree.ofDocument directory f).map fun tree =>
      { r with collected := some tree }
  | .transformed =>
    (Artifact.transformed.load TransformResult.ofDocument directory f).map fun result =>
      { r with transformed := some result }
  | .pushed =>
    (Artifact.pushed.load PushResult.ofDocument directory f).map fun result =>
      { r with pushed := some result }

end Runner

end ProfileMigration
