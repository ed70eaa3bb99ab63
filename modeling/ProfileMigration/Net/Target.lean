/-
  ProfileMigration.Net.Target

  The target of a request: the path and query of a web address, in the form that is sent:

    percentEncoded      -- bytes that must not stand for themselves as `%XX`
    Target.segments     -- the segments of a path, dots resolved
    Target.ofText       -- the target of what follows the host

  Line ends and tabs inside an address count for nothing, nor do blanks at its end, and a
  fragment is not sent.

  `send` puts a path behind the address of the manager; this is what becomes of both.
-/
import ProfileMigration.Text.Blank
import ProfileMigration.Text.Hex

namespace ProfileMigration.Net

/-- One byte as a percent sign and two digits. -/
def percentByte (b : UInt8) : List Char :=
  ['%', (Text.hexDigit (b.toNat / 16)).toUpper, (Text.hexDigit (b.toNat % 16)).toUpper]

/-- Encodes the bytes of characters that are not ASCII, controls, and the given others. -/
def percentEncoded (others : List Char) (cs : List Char) : List Char :=
  cs.flatMap fun c =>
    if c.toNat < 0x20 ∨ 0x7e < c.toNat ∨ c ∈ others then
      (String.utf8EncodeChar c).flatMap percentByte
    else [c]

namespace Target

/-- What does not stand for itself in a path. -/
def pathMarks : List Char := [' ', '"', '<', '>', '`', '#', '?', '\x7b', '\x7d']

/-- What does not stand for itself in a query. -/
def queryMarks : List Char := [' ', '"', '#', '<', '>', '\'']

/-- Reads encoded dots as dots. -/
def plainDots : List Char → List Char
  | '%' :: '2' :: 'e' :: cs | '%' :: '2' :: 'E' :: cs => '.' :: plainDots cs
  | c :: cs => c :: plainDots cs
  | [] => []

/-- Resolves dots: one stands for the place itself, two for the place above. A path that ends
    in dots ends in a slash. -/
def resolve (kept : List (List Char)) : List (List Char) → List (List Char)
  | [] => kept
  | seg :: rest =>
    let last := rest.isEmpty
    if plainDots seg = ['.', '.'] then
      resolve (kept.dropLast ++ if last then [[]] else []) rest
    else if plainDots seg = ['.'] then resolve (kept ++ if last then [[]] else []) rest
    else resolve (kept ++ [percentEncoded pathMarks seg]) rest

/-- The segments of a path, dots resolved. Backslashes count as slashes. -/
def segments (path : List Char) : List (List Char) :=
  -- The slash in front of a path leaves an empty first piece
  match Text.splitBy (fun c => c = '/' || c = '\\') path with
  | [] :: first :: rest => resolve [] (first :: rest)
  | segs => resolve [] segs

/-- The target of what follows the host in an address. -/
def ofText (s : String) : String :=
  let cs := s.toList.filter fun c => !(c = '\t' || c = '\n' || c = '\r')
  let cs := (cs.reverse.dropWhile fun c => c.toNat ≤ 0x20).reverse
  let (path, query) := (cs.takeWhile (· ≠ '#')).span (· ≠ '?')
  let path := (segments path).flatMap fun seg => '/' :: seg
  let query := match query with
    | [] => []
    | mark :: rest => mark :: percentEncoded queryMarks rest
  String.ofList (path ++ query)

end Target

end ProfileMigration.Net
