/-
  ProfileMigration.Text.Quoted

  Texts in double quotes for messages:

    quotedChar  -- one character, escaped where it would not show
    inQuotes    -- a text with its quotes

  The words of a `Mismatch` quote what was read with it.
-/
import ProfileMigration.Text.Hidden

namespace ProfileMigration.Text

/-- A character inside quotes: the quote, the backslash, line ends, tabs and the null
    character have short escapes; other characters that do not show are written by their code
    point. -/
def quotedChar (c : Char) : List Char :=
  if c = '\x00' then ['\\', '0']
  else if c = '\t' then ['\\', 't']
  else if c = '\r' then ['\\', 'r']
  else if c = '\n' then ['\\', 'n']
  else if c = '"' then ['\\', '"']
  else if c = '\\' then ['\\', '\\']
  else if isHidden c then '\\' :: 'u' :: '\x7b' :: (Nat.toDigits 16 c.toNat ++ ['\x7d'])
  else [c]

/-- A text with quotes around it. -/
def inQuotes (s : String) : String :=
  String.ofList ('"' :: (s.toList.flatMap quotedChar ++ ['"']))

end ProfileMigration.Text
