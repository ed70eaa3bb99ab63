/-
  ProfileMigration.Template.Community

  The written forms of communities:

    isStandard  -- a well-known name, or two numbers around a colon
    isExtended  -- `rt` or `soo`, a blank, and a text whose last colon stands before a number

  Digits and blanks are those of ASCII; every other character may stand in the middle of an
  extended community, colons included.

  This models the two expressions of `CommunityPatterns` and `WELL_KNOWN_COMMUNITIES`.
-/
import ProfileMigration.Text.Blank

namespace ProfileMigration.Community

/-- The communities with names of their own. -/
def wellKnown : List String := ["internet", "local-AS", "no-advertise", "no-export"]

/-- One or more ASCII digits. -/
def isNumber (cs : List Char) : Bool := cs ≠ [] && cs.all Char.isDigit

/-- The blanks of ASCII. -/
def isAsciiBlank (c : Char) : Bool := c == ' ' || (0x09 ≤ c.toNat && c.toNat ≤ 0x0d)

/-- A number, a colon and a number. -/
def isPair (cs : List Char) : Bool :=
  match Text.splitBy (· = ':') cs with
  | [high, low] => isNumber high && isNumber low
  | _ => false

/-- A standard community. -/
def isStandard (s : String) : Bool := wellKnown.contains s || isPair s.toList

/-- The parts before and after the last colon. -/
def splitAtLastColon? (cs : List Char) : Option (List Char × List Char) :=
  match cs.reverse.span (· ≠ ':') with
  | (after, _ :: before) => some (before.reverse, after.reverse)
  | (_, []) => none

/-- A text without blanks, a colon and a number. -/
def isTarget (cs : List Char) : Bool :=
  match splitAtLastColon? cs with
  | some (target, number) =>
    target ≠ [] && target.all (fun c => !isAsciiBlank c) && isNumber number
  | none => false

/-- An extended community. -/
def isExtended (s : String) : Bool :=
  match s.toList with
  | 'r' :: 't' :: ' ' :: cs => isTarget cs
  | 's' :: 'o' :: 'o' :: ' ' :: cs => isTarget cs
  | _ => false

end ProfileMigration.Community
