/-
  ProfileMigration.Proofs.Template.Wrapping

  Definitions in which values stand in wrappers:

    Legacy.wrapper          -- a value in a wrapper that stands for it
    Legacy.Wraps            -- a value and such a wrapper
    normalize_wrapped       -- wrapping any members of a definition, any number of times, changes
                               neither its field tree nor what it is converted to
-/
import ProfileMigration.Proofs.Legacy.Rewriting
import ProfileMigration.Proofs.Template.FlatKeys

namespace ProfileMigration

namespace Legacy

variable {hints : Hints}

/-- A value in a wrapper of a given type, which may also say what kind of object it is. -/
def wrapper (objectType? : Option Json) (type : String) (j : Json) : Json :=
  .obj ((objectType?.map ("vipObjectType", ·)).toList ++ [("vipType", .str type), ("vipValue", j)])

/-- A value and a wrapper that stands for it. -/
def Wraps (_key : String) (j j' : Json) : Prop :=
  ∃ objectType? type, Transparent type ∧ j' = wrapper objectType? type j

theorem normalizeField_wrapper (key : String) (objectType? : Option Json) {type : String}
    (htype : Transparent type) (j : Json) :
    normalizeField hints key (wrapper objectType? type j) = normalizeField hints key j := by
  rw [wrapper, List.append_cons]
  refine normalizeField_inside key ?_ htype ?_
  · cases objectType? with
    | none => rfl
    | some objectType => rfl
  · cases objectType? with
    | none => simp
    | some objectType => simp

/-- Wrapping is silent: a wrapper configures what is in it, and it is an object. -/
theorem silent_wraps (hints : Hints) : Silent hints Wraps where
  same := by
    rintro key j _ ⟨objectType?, type, htype, rfl⟩
    exact normalizeField_wrapper key objectType? htype j
  plain := by
    rintro j _ ⟨objectType?, type, -, rfl⟩ -
    rfl

end Legacy

/-- Wherever the values of members of a definition are put into wrappers, at any depth and any
    number of times, the field tree stays the same, and so does what the definition is converted
    to. -/
theorem normalize_wrapped {members members' : List (String × Json)}
    (h : Legacy.RewritesMembers Legacy.Wraps members members') :
    (∀ hints, Legacy.normalize hints (.obj members') = Legacy.normalize hints (.obj members)) ∧
    ∀ (o : LegacyObject) (id : Uuid) (c : Context),
      convert { o with definition := .obj members' } id c =
        convert { o with definition := .obj members } id c := by
  have hfields : ∀ hints, Legacy.normalize hints (.obj members') =
      Legacy.normalize hints (.obj members) :=
    fun hints => Legacy.normalizeMembers_rewrites (Legacy.silent_wraps hints) h
  refine ⟨hfields, fun o id c => ?_⟩
  refine convert_congr (o := { o with definition := .obj members }) fun t _ => ?_
  rw [hfields t.hints]

/-- Logging to disk and to a server, as a definition without wrappers. -/
def bareLogging : List (String × Json) :=
  [("disk", .obj [("enable", .str "true")]), ("server", .arr [.obj [("name", .str "10.0.0.5")]])]

/-- The same, with wrappers around the object, around the list, and two around the name. -/
def wrappedLogging : List (String × Json) :=
  [("disk", Legacy.wrapper none "constant" (.obj [("enable", .str "true")])),
    ("server", Legacy.wrapper (some (.str "tree")) "constant" (.arr [.obj [
      ("name", Legacy.wrapper none "notIgnore"
        (Legacy.wrapper (some .null) "" (.str "10.0.0.5")))]]))]

theorem normalize_wrapped_logging :
    Legacy.RewritesMembers Legacy.Wraps bareLogging wrappedLogging ∧
    ∀ (o : LegacyObject) (id : Uuid) (c : Context),
      convert { o with definition := .obj wrappedLogging } id c =
        convert { o with definition := .obj bareLogging } id c := by
  have hwrapped : Legacy.RewritesMembers Legacy.Wraps bareLogging wrappedLogging := by
    refine .cons (.step (.same _ _) ⟨none, "constant", by decide, rfl⟩)
      (.cons (.step (.list (.cons (.cons ?_ .nil) .nil)) ⟨_, "constant", by decide, rfl⟩) .nil)
    exact .step (.step (.same _ _) ⟨some .null, "", by decide, rfl⟩)
      ⟨none, "notIgnore", by decide, rfl⟩
  exact ⟨hwrapped, (normalize_wrapped hwrapped).2⟩

end ProfileMigration
