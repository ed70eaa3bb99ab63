/-
  ProfileMigration.Json.Token

  The tokens of JSON text, found by one pass that looks at each character once:

    Token           -- brackets, separators and scalars
    Scan            -- what the pass remembers between two characters
    Scan.step       -- one character
    Token.ofText?   -- all tokens of a text, if every one is well formed

  Strings are decoded on the way: escapes, and pairs of surrogate escapes that stand for one
  character. Half a pair is well formed but stands for no character, and its string for no
  text; an unescaped control character is refused.
-/
import ProfileMigration.Json.Number
import ProfileMigration.Text.Hex

namespace ProfileMigration.Json

/-- A token of JSON text. -/
inductive Token where
  | openArray
  | closeArray
  | openObject
  | closeObject
  | comma
  | colon
  | null
  | bool (b : Bool)
  /-- A number; none when it is too large to be one. -/
  | num (n? : Option Number)
  /-- A string; none when half a surrogate pair in it stands for no character. -/
  | str (s? : Option String)
deriving DecidableEq

/-- The characters of a string so far, in reverse; none after half a surrogate pair. -/
abbrev Decoded := Option (List Char)

/-- One more character. -/
def Decoded.push (c : Char) (read : Decoded) : Decoded := read.map (c :: ·)

/-- What has been read of the token in progress. A unicode escape keeps the count and value
    of its digits so far. -/
inductive Scan where
  /-- Between tokens. -/
  | idle
  /-- Inside a word or a number; its characters are kept in reverse. -/
  | word (read : List Char)
  /-- Inside a string. -/
  | string (read : Decoded)
  /-- After a backslash in a string. -/
  | escape (read : Decoded)
  /-- Inside the four digits of a unicode escape. -/
  | unicode (read : Decoded) (count value : Nat)
  /-- After the first half of a surrogate pair: the backslash of the second should follow. -/
  | paired (read : Decoded) (high : Nat)
  /-- After that backslash. -/
  | pairedEscape (read : Decoded) (high : Nat)
  /-- Inside the digits of the second half. -/
  | pairedUnicode (read : Decoded) (high count value : Nat)
deriving DecidableEq

/-- Blanks between tokens. -/
def isSpace (c : Char) : Bool := c == ' ' || c == '\t' || c == '\n' || c == '\r'

/-- The token that a single character stands for. -/
def punctuation? : Char → Option Token
  | '[' => some .openArray
  | ']' => some .closeArray
  | '\x7b' => some .openObject
  | '\x7d' => some .closeObject
  | ',' => some .comma
  | ':' => some .colon
  | _ => none

/-- The scalar that a word stands for. -/
def word? (cs : List Char) : Option Token :=
  if cs = ['n', 'u', 'l', 'l'] then some .null
  else if cs = ['t', 'r', 'u', 'e'] then some (.bool true)
  else if cs = ['f', 'a', 'l', 's', 'e'] then some (.bool false)
  else (Numeral.ofText? cs).map fun n => .num n.number?

/-- The character that a one-letter escape stands for. -/
def escaped? : Char → Option Char
  | '"' => some '"'
  | '\\' => some '\\'
  | '/' => some '/'
  | 'b' => some '\x08'
  | 'f' => some '\x0c'
  | 'n' => some '\n'
  | 'r' => some '\r'
  | 't' => some '\t'
  | _ => none

/-- Ends a unicode escape: an ordinary character joins the string, a first half of a pair
    waits for the second, a lone second half stands for no character. -/
def endUnicode (read : Decoded) (value : Nat) : Scan :=
  if 0xdc00 ≤ value ∧ value ≤ 0xdfff then .string none
  else if 0xd800 ≤ value ∧ value < 0xdc00 then .paired read value
  else .string (read.push (Char.ofNat value))

/-- Ends the escape after a first half: if it is a second half, the two stand for one
    character. -/
def endPaired (read : Decoded) (high low : Nat) : Scan :=
  if 0xdc00 ≤ low ∧ low ≤ 0xdfff then
    .string (read.push (Char.ofNat (0x10000 + (high - 0xd800) * 0x400 + (low - 0xdc00))))
  else .string none

namespace Scan

/-- A character outside any token: a blank, a separator, or the start of a token. -/
def start (c : Char) : List Token × Scan :=
  if isSpace c then ([], .idle)
  else if c = '"' then ([], .string (some []))
  else match punctuation? c with
    | some token => ([token], .idle)
    | none => ([], .word [c])

/-- Whether a character ends a word: a blank, a separator or a quote. -/
def endsWord (c : Char) : Bool := isSpace c || c == '"' || (punctuation? c).isSome

/-- A character inside a string. -/
def inString (read : Decoded) (c : Char) : Option (List Token × Scan) :=
  if c = '"' then some ([.str (read.map fun cs => String.ofList cs.reverse)], .idle)
  else if c = '\\' then some ([], .escape read)
  else if c.toNat < 0x20 then none
  else some ([], .string (read.push c))

/-- A character after a backslash. -/
def inEscape (read : Decoded) (c : Char) : Option (List Token × Scan) :=
  if c = 'u' then some ([], .unicode read 0 0)
  else (escaped? c).map fun e => ([], .string (read.push e))

/-- One character: the tokens it completes and what to remember next. -/
def step : Scan → Char → Option (List Token × Scan)
  | .idle, c => some (start c)
  | .word read, c =>
    if endsWord c then do
      let token ← word? read.reverse
      let (tokens, next) := start c
      return (token :: tokens, next)
    else some ([], .word (c :: read))
  | .string read, c => inString read c
  | .escape read, c => inEscape read c
  | .unicode read count value, c => do
    let digit ← Text.hexValue? c
    let value := 16 * value + digit
    return ([], if count = 3 then endUnicode read value else .unicode read (count + 1) value)
  -- Where no second half follows, the first stands for no character
  | .paired read high, c =>
    if c = '\\' then some ([], .pairedEscape read high) else inString none c
  | .pairedEscape read high, c =>
    if c = 'u' then some ([], .pairedUnicode read high 0 0) else inEscape none c
  | .pairedUnicode read high count value, c => do
    let digit ← Text.hexValue? c
    let value := 16 * value + digit
    return ([],
      if count = 3 then endPaired read high value else .pairedUnicode read high (count + 1) value)

/-- The end of the text: a word ends here, a string must not be open. -/
def finish : Scan → Option (List Token)
  | .idle => some []
  | .word read => (word? read.reverse).map ([·])
  | _ => none

/-- The tokens to the end of the text, behind those found before, which are in reverse. -/
def run (scan : Scan) (found : List Token) : List Char → Option (List Token)
  | [] => scan.finish.map (found.reverse ++ ·)
  | c :: cs =>
    match scan.step c with
    | none => none
    | some (tokens, next) => next.run (tokens.reverse ++ found) cs

end Scan

/-- The tokens of a text. -/
def Token.ofText? (cs : List Char) : Option (List Token) := Scan.idle.run [] cs

end ProfileMigration.Json
