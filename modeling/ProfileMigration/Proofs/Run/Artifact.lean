/-
  ProfileMigration.Proofs.Run.Artifact

  Results in files:

    Folder.read_of_write    -- a file holds what was written to it
    Artifact.load_of_save   -- so a result is loaded from the text that it was saved as
    Artifact.parse_pretty   -- which reads as its wire form does
    Runner.load_of_save     -- a run that saved a result leaves it for others to load
    Runner.save_empty       -- and nothing keeps it from saving into an empty folder
-/
import ProfileMigration.Proofs.Json.Text
import ProfileMigration.Run.Runner

namespace ProfileMigration

/-- A file holds what was written to it. -/
theorem Folder.read_of_write {f f' : Folder} {place : List String} {text : String}
    (h : f.write place text = some f') : f'.read place = some text := by
  rw [write] at h
  split at h
  · rename_i hfree
    have hplace : place ≠ [] := by
      rintro rfl
      exact hfree.2 rfl
    rw [← Option.some.inj h, read, entry?, if_neg hplace, put, List.lookup_cons_self]
  · cases h

namespace Artifact

variable {α : Type} {reader : Wire.Reader α} {value : α}

/-- A result is loaded from the text that it was saved as. -/
theorem load_of_save {a : Artifact} {text directory path : String} {f f' : Folder}
    (h : a.save text directory f = (.ok path, f')) (hparse : parse reader text = some value) :
    a.load reader directory f' = .ok value := by
  rw [save] at h
  split at h
  · cases h
  · split at h
    · cases h
    · rename_i hwrite
      obtain ⟨-, rfl⟩ := Prod.mk.inj h
      rw [load, Folder.read_of_write hwrite]
      dsimp only
      rw [hparse]

/-- What reads from a wire form reads from its text as well, if its doubles read back from their
    digits and it does not nest too deep. -/
theorem parse_pretty {j : Json} (hread : Wire.read reader j = .ok value)
    (hlegible : j.isLegible = true) (hdepth : (Document.ofJson j).depth ≤ Json.nestingLimit) :
    parse reader j.pretty = some value := by
  rw [parse, Document.ofText?_pretty hlegible hdepth, Option.bind_some]
  exact congrArg Except.toOption hread

end Artifact

namespace Runner

variable {r : Runner} {a : Artifact} {text : String}

/-- A result is loaded from the file that a run saved it in. -/
theorem load_of_save {α : Type} {reader : Wire.Reader α} {value : α} {directory path : String}
    {f f' : Folder} (htext : r.text a = .ok text) (hsave : r.save a directory f = (.ok path, f'))
    (hparse : Artifact.parse reader text = some value) :
    a.load reader directory f' = .ok value := by
  rw [save, htext] at hsave
  exact Artifact.load_of_save hsave hparse

/-- A result that is there can be saved in an empty folder. -/
theorem save_empty (htext : r.text a = .ok text) :
    ∃ f', r.save a "artifacts" .empty = (.ok (a.path "artifacts"), f') := by
  have hpath : Folder.path "artifacts" = ["artifacts"] := by decide +kernel
  have hfile : Folder.path (a.path "artifacts") = ["artifacts", a.fileName] := by
    cases a <;> decide +kernel
  rw [save, htext]
  dsimp only
  rw [Artifact.save, hpath, hfile]
  exact ⟨_, rfl⟩

end Runner

end ProfileMigration
