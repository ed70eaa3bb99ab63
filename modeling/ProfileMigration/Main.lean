/-
  ProfileMigration.Main

  The command line: commands as arguments, a workbook on standard input, and what was done on
  standard output.

  This is `main` with a script in place of the network.
-/
import ProfileMigration.Run.Config
import ProfileMigration.Run.Rehearsal

open ProfileMigration

/-- Everything on a stream. -/
partial def readAll (stream : IO.FS.Stream) (before : String) : IO String := do
  let line ← stream.getLine
  if line.isEmpty then return before else readAll stream (before ++ line)

/-- The settings from the environment. -/
def settings : IO Config := do
  let known ← Config.names.mapM fun name => do return (name, ← IO.getEnv name)
  return .load fun name => (known.lookup name).join

def main (args : List String) : IO UInt32 := do
  match Command.ofWords? args with
  | none =>
    IO.eprintln "commands: collect, transform, push, rollback, run, run-or-rollback"
    return 2
  | some commands =>
    match rehearse commands (← settings).profileMark (← readAll (← IO.getStdin) "") with
    | .error e =>
      IO.eprintln e
      return 1
    | .ok (text, failure) =>
      IO.println text
      match failure with
      | none => return 0
      | some e =>
        IO.eprintln e
        return 1
