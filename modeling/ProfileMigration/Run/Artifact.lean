/-
  ProfileMigration.Run.Artifact

  The results of a run's stages as files, so that a later run can go on from them:

    Artifact            -- the three results, their file names
    ArtifactError       -- what can go wrong, and the words for it
    Artifact.save       -- writes a result as JSON text
    Artifact.load       -- reads one back

  This models `save_artifact` and `load_artifact`, with what loads and saves each result.
-/
import ProfileMigration.Delivery.Push
import ProfileMigration.Run.Folder

namespace ProfileMigration

/-- A result of a stage. -/
inductive Artifact where
  | collected
  | transformed
  | pushed
deriving DecidableEq, Repr

/-- What can go wrong with a saved result. -/
inductive ArtifactError where
  /-- The stage has no result yet. -/
  | absent (a : Artifact)
  | create (directory : String)
  | write (path : String)
  | read (path : String)
  | parse (path : String)
deriving DecidableEq

namespace Artifact

/-- The name of a result. -/
def name : Artifact → String
  | collected => "collected"
  | transformed => "transformed"
  | pushed => "pushed"

/-- The file of a result. -/
def fileName (a : Artifact) : String := a.name ++ ".json"

/-- The path of a result in a directory. -/
def path (a : Artifact) (directory : String) : String := directory ++ "/" ++ a.fileName

end Artifact

namespace ArtifactError

/-- The words for a fault. -/
def message : ArtifactError → String
  | absent a => "nothing " ++ a.name ++ " yet"
  | create directory => "Failed to create " ++ directory
  | write path => "Failed to write " ++ path
  | read path => "Failed to read " ++ path
  | parse path => "Failed to parse " ++ path

end ArtifactError

namespace Artifact

/-- Writes the text of a result: its path, and the folder after it. A directory that was made
    stays even if the file cannot be written. -/
def save (a : Artifact) (text directory : String) (f : Folder) :
    Except ArtifactError String × Folder :=
  match f.createAll (Folder.path directory) with
  | none => (.error (.create directory), f)
  | some f =>
    match f.write (Folder.path (a.path directory)) text with
    | none => (.error (.write (a.path directory)), f)
    | some f => (.ok (a.path directory), f)

/-- The value of a text, read from its document, so that a repeated member is noticed and an
    unknown one skipped. -/
def parse {α : Type} (read : Wire.Reader α) (text : String) : Option α :=
  (Document.ofText? text).bind fun d => (read d).toOption

/-- Reads a result back. -/
def load {α : Type} (a : Artifact) (read : Wire.Reader α) (directory : String) (f : Folder) :
    Except ArtifactError α :=
  match f.read (Folder.path (a.path directory)) with
  | none => .error (.read (a.path directory))
  | some text =>
    match parse read text with
    | none => .error (.parse (a.path directory))
    | some value => .ok value

end Artifact

end ProfileMigration
