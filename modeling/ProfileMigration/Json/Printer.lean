/-
  ProfileMigration.Json.Printer

  Writes JSON values as text:

    Json.quoted     -- a string with its quotes and escapes
    Json.compact    -- no blanks
    Json.pretty     -- one element or member a line, two blanks a level

  `save_artifact` writes the pretty form; request bodies and messages have the compact one.
-/
import ProfileMigration.Json.Basic
import ProfileMigration.Text.Hex

namespace ProfileMigration.Json

/-- A character inside a string: quotes, backslashes and control characters are escaped, all
    else stands for itself. -/
def escapedChar (c : Char) : List Char :=
  if c = '"' then ['\\', '"']
  else if c = '\\' then ['\\', '\\']
  else if c = '\x08' then ['\\', 'b']
  else if c = '\x0c' then ['\\', 'f']
  else if c = '\n' then ['\\', 'n']
  else if c = '\r' then ['\\', 'r']
  else if c = '\t' then ['\\', 't']
  else if c.toNat < 0x20 then
    ['\\', 'u', '0', '0', Text.hexDigit (c.toNat / 16), Text.hexDigit (c.toNat % 16)]
  else [c]

/-- A string with its quotes. -/
def quoted (s : String) : List Char := '"' :: (s.toList.flatMap escapedChar ++ ['"'])

/-- The text of a value that is not a container. -/
def scalar : Json → List Char
  | .null => "null".toList
  | .bool true => "true".toList
  | .bool false => "false".toList
  | .num n => n.text.toList
  | .str s => quoted s
  | .arr _ | .obj _ => []

/-! ## Compact text -/

mutual

/-- The text of a value, without blanks. -/
def compactChars : Json → List Char
  | .arr [] => ['[', ']']
  | .arr (j :: rest) => '[' :: (compactChars j ++ compactElements rest)
  | .obj [] => ['\x7b', '\x7d']
  | .obj ((k, j) :: rest) => '\x7b' :: (quoted k ++ ':' :: (compactChars j ++ compactMembers rest))
  | other => scalar other

/-- The elements after the first, and the closing bracket. -/
def compactElements : List Json → List Char
  | [] => [']']
  | j :: rest => ',' :: (compactChars j ++ compactElements rest)

/-- The members after the first, and the closing brace. -/
def compactMembers : List (String × Json) → List Char
  | [] => ['\x7d']
  | (k, j) :: rest => ',' :: (quoted k ++ ':' :: (compactChars j ++ compactMembers rest))

end

/-- The text of a value, without blanks. -/
def compact (j : Json) : String := String.ofList (compactChars j)

/-! ## Indented text -/

/-- A new line at a level of indentation. -/
def newLine (level : Nat) : List Char := '\n' :: List.replicate (2 * level) ' '

mutual

/-- The text of a value at a level of indentation, one element or member a line. -/
def prettyChars (level : Nat) : Json → List Char
  | .arr [] => ['[', ']']
  | .arr (j :: rest) =>
    '[' :: (newLine (level + 1) ++ (prettyChars (level + 1) j ++ prettyElements level rest))
  | .obj [] => ['\x7b', '\x7d']
  | .obj ((k, j) :: rest) =>
    '\x7b' :: (newLine (level + 1) ++
      (quoted k ++ ':' :: ' ' :: (prettyChars (level + 1) j ++ prettyMembers level rest)))
  | other => scalar other

/-- The elements after the first, and the closing bracket of the level. -/
def prettyElements (level : Nat) : List Json → List Char
  | [] => newLine level ++ [']']
  | j :: rest =>
    ',' :: (newLine (level + 1) ++ (prettyChars (level + 1) j ++ prettyElements level rest))

/-- The members after the first, and the closing brace of the level. -/
def prettyMembers (level : Nat) : List (String × Json) → List Char
  | [] => newLine level ++ ['\x7d']
  | (k, j) :: rest =>
    ',' :: (newLine (level + 1) ++
      (quoted k ++ ':' :: ' ' :: (prettyChars (level + 1) j ++ prettyMembers level rest)))

end

/-- The text of a value, one element or member a line. -/
def pretty (j : Json) : String := String.ofList (prettyChars 0 j)

end ProfileMigration.Json
