/-
  ProfileMigration.Legacy.Hint

  Declared kinds of legacy fields. A declaration types a value by the field it sits in where
  its spelling alone would mislead:

    FieldKind       -- enumeration, integer, double, truth value, address, plain text
    Hints           -- declarations by field name
    Hints.kind?     -- the kind of a field; a path counts by its last segment

  This models `FieldKind` and `FieldHints`.
-/
import ProfileMigration.Field.Path

namespace ProfileMigration

/-- The declared kind of a legacy field. -/
inductive FieldKind where
  /-- One of the members, in any case. -/
  | enum (members : List String)
  | integer
  | float
  | bool
  | address
  /-- Plain text, whatever it looks like. -/
  | text
deriving DecidableEq, Repr

/-- Declarations by field name; the first one of a name counts. -/
abbrev Hints := List (String × FieldKind)

/-- The declared kind of a field. -/
def Hints.kind? (hints : Hints) (field : String) : Option FieldKind :=
  hints.lookup (Path.leaf field)

end ProfileMigration
