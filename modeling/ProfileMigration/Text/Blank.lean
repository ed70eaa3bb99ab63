/-
  ProfileMigration.Text.Blank

  Cutting texts at characters, and the blanks of Unicode text (the property White_Space):

    splitBy     -- the pieces between cuts, always at least one
    isBlank     -- the twenty-five blank characters
    trim        -- without leading and trailing blanks
    words       -- the maximal runs of other characters
    sameIgnoringCase -- equality up to ASCII case

  `coerce_scalar`, `infer_str` and `parse_address` cut their texts in these ways.
-/

namespace ProfileMigration.Text

/-! ## Cutting -/

/-- The pieces of a text between the characters of a class; two such characters in a row
    leave an empty piece. -/
def splitBy (cut : Char → Bool) : List Char → List (List Char)
  | [] => [[]]
  | c :: cs =>
    if cut c then [] :: splitBy cut cs
    else match splitBy cut cs with
      | piece :: pieces => (c :: piece) :: pieces
      | [] => [[c]]

theorem splitBy_ne_nil (cut : Char → Bool) (cs : List Char) : splitBy cut cs ≠ [] := by
  cases cs with
  | nil => simp [splitBy]
  | cons c cs =>
    unfold splitBy
    split
    · simp
    · split <;> simp

/-! ## Blanks -/

/-- The characters with the Unicode property White_Space. -/
def isBlank (c : Char) : Bool :=
  let n := c.toNat
  (0x09 ≤ n && n ≤ 0x0d) || n == 0x20 || n == 0x85 || n == 0xa0 || n == 0x1680 ||
    (0x2000 ≤ n && n ≤ 0x200a) || n == 0x2028 || n == 0x2029 || n == 0x202f || n == 0x205f ||
    n == 0x3000

/-- Drops leading blanks. -/
def trimStart (cs : List Char) : List Char := cs.dropWhile isBlank

/-- Drops leading and trailing blanks. -/
def trimChars (cs : List Char) : List Char := (trimStart (trimStart cs).reverse).reverse

/-- A text without its leading and trailing blanks. -/
def trim (s : String) : String := String.ofList (trimChars s.toList)

/-- The words of a text: the maximal runs of characters that are not blank. -/
def words (s : String) : List (List Char) := (splitBy isBlank s.toList).filter (· ≠ [])

/-! ## Case -/

/-- Whether two texts agree up to the case of ASCII letters. -/
def sameIgnoringCase (s t : String) : Bool :=
  s.toList.map Char.toLower == t.toList.map Char.toLower

end ProfileMigration.Text
