/-
  ProfileMigration.Run.Folder

  A folder of text files as a value:

    Folder              -- files and directories by path
    Folder.entry?       -- what stands at a path
    Folder.createAll    -- makes a directory and those above it
    Folder.write / read -- whole files

  Paths are segments from the folder itself, which is always a directory.

  `save_artifact` and `load_artifact` use a file system in these ways only.
-/
import ProfileMigration.Text.Blank

namespace ProfileMigration

/-- What stands at a path. -/
inductive Entry where
  | file (text : String)
  | directory
deriving DecidableEq

/-- Files and directories by path, each path once. -/
structure Folder where
  entries : List (List String × Entry)
deriving DecidableEq

namespace Folder

/-- Nothing in it. -/
def empty : Folder := ⟨[]⟩

/-- The segments of a written path; empty ones and single dots count for nothing. -/
def path (s : String) : List String :=
  ((Text.splitBy (· = '/') s.toList).map String.ofList).filter fun seg => seg ≠ "" && seg ≠ "."

/-- What stands at a path. -/
def entry? (f : Folder) (place : List String) : Option Entry :=
  if place = [] then some .directory else f.entries.lookup place

/-- Puts something at a path. -/
def put (f : Folder) (place : List String) (e : Entry) : Folder :=
  ⟨(place, e) :: f.entries.filter (·.1 ≠ place)⟩

/-- Makes one directory, unless a file stands there. -/
def create (f : Folder) (place : List String) : Option Folder :=
  match f.entry? place with
  | some .directory => some f
  | some (.file _) => none
  | none => some (f.put place .directory)

/-- Makes the directories named by segments, each below the one before. -/
def createBelow (f : Folder) (above : List String) : List String → Option Folder
  | [] => some f
  | seg :: rest => (f.create (above ++ [seg])).bind (·.createBelow (above ++ [seg]) rest)

/-- Makes a directory and those above it, unless a file is in the way. -/
def createAll (f : Folder) (place : List String) : Option Folder := f.createBelow [] place

/-- Writes a file whose directory is there, unless a directory stands in its place. -/
def write (f : Folder) (place : List String) (text : String) : Option Folder :=
  if f.entry? place.dropLast = some .directory ∧ f.entry? place ≠ some .directory then
    some (f.put place (.file text))
  else none

/-- The text of a file. -/
def read (f : Folder) (place : List String) : Option String :=
  match f.entry? place with
  | some (.file text) => some text
  | _ => none

end Folder

end ProfileMigration
