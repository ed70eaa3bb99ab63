/-
  ProfileMigration.Numeric.Decimal

  Decimal numerals: the shortest one that identifies a double-precision number, and the two
  ways of writing it.

    Decimal                 -- digits and a power of ten
    Binary64.shortest       -- the fewest digits that read back, nearest of those
    Decimal.ofText?         -- numeral text: optional fraction, optional exponent
    Decimal.toBinary64      -- the nearest double-precision number
    NumeralStyle                -- where an exponent is written, and how ties are broken
    Binary64.render         -- a finite or special number in a style

  The display of a `Literal`, `coerce_scalar` and the wire form of numbers lean on it.
-/
import ProfileMigration.Numeric.Binary64

namespace ProfileMigration

/-- The number `digits * 10 ^ exponent`. -/
structure Decimal where
  digits : Nat
  exponent : Int
deriving DecidableEq, Repr

/-! ## Shortest digits -/

/-- How many decimal digits a number has; zero has one. -/
def decimalLength (n : Nat) : Nat := (Nat.toDigits 10 n).length

/-- The exponent of the largest power of ten that is at most `num / den`, for a positive
    quotient. -/
def floorLog10 (num den : Nat) : Int :=
  if den ≤ num then (decimalLength (num / den) : Int) - 1
  else -(decimalLength ((den - 1) / num) : Int)

/-- What to do when two shortest numerals are equally near. -/
inductive TieRule where
  /-- The one with the even last digit. -/
  | even
  /-- The larger one. -/
  | up
deriving DecidableEq, Repr

namespace Binary64

/-- The reals that round to a positive finite number, as numerators over a common
    denominator: the lower end, the number, the upper end and the denominator. Below a power
    of two the spacing halves, so the lower end is half as far. -/
def interval (x : Binary64) : Nat × Nat × Nat × Nat :=
  let m := x.significand
  let below := if x.fraction = 0 ∧ 1 < x.exponentField then 1 else 2
  if 0 ≤ x.exponent then
    let s := 1 <<< x.exponent.toNat
    ((4 * m - below) * s, 4 * m * s, (4 * m + 2) * s, 4)
  else (4 * m - below, 4 * m, 4 * m + 2, 4 <<< (-x.exponent).toNat)

/-- The best numeral with last digit worth `10 ^ place` that reads back as the number, if
    any: of the two neighbours on that grid, the one in the rounding interval, or the nearer
    when both are. The ends of the interval count when the significand is even. -/
def nearestOn (tie : TieRule) (x : Binary64) (place : Int) : Option Decimal :=
  let (low, mid, high, den) := x.interval
  -- Everything is multiplied out to one denominator, so that no comparison rounds
  let up := Nat.pow 10 (-place).toNat
  let unit := den * Nat.pow 10 place.toNat
  let lower := mid * up / unit
  let upper := lower + 1
  let closed := x.significand % 2 = 0
  let lowerIn := low * up < lower * unit ∨ (closed ∧ low * up = lower * unit)
  let upperIn := upper * unit < high * up ∨ (closed ∧ upper * unit = high * up)
  let toLower := mid * up - lower * unit
  let toUpper := upper * unit - mid * up
  if lowerIn ∧ upperIn then
    if toLower < toUpper then some ⟨lower, place⟩
    else if toUpper < toLower then some ⟨upper, place⟩
    else match tie with
      | .up => some ⟨upper, place⟩
      | .even => some ⟨if lower % 2 = 0 then lower else upper, place⟩
  else if lowerIn then some ⟨lower, place⟩
  else if upperIn then some ⟨upper, place⟩
  else none

/-- The numeral with the fewest digits that reads back as a positive finite number, and of
    those the nearest. Seventeen digits always suffice. -/
def shortest (tie : TieRule) (x : Binary64) : Decimal :=
  let (_, mid, _, den) := x.interval
  -- One more digit each time, from the leading digit alone to eighteen
  let leading := floorLog10 mid den
  ((List.range 18).findSome? fun (n : Nat) => nearestOn tie x (leading - (n : Int))).getD
    ⟨x.significand, 0⟩

end Binary64

namespace Decimal

/-- Moves trailing zeros of the digits into the exponent. -/
def trimZeros (d : Decimal) : Decimal :=
  if h : d.digits = 0 then ⟨0, 0⟩
  else if d.digits % 10 = 0 then trimZeros ⟨d.digits / 10, d.exponent + 1⟩
  else d
termination_by d.digits
decreasing_by exact Nat.div_lt_self (Nat.pos_of_ne_zero h) (by decide)

/-! ## Writing -/

/-- Writes the numeral without an exponent: zeros fill the places up to the point. -/
def positional (d : Decimal) : String :=
  let digits := Nat.toDigits 10 d.digits
  if 0 ≤ d.exponent then String.ofList (digits ++ List.replicate d.exponent.toNat '0')
  else
    let places := (-d.exponent).toNat
    -- At least one digit stands before the point
    let padded := List.replicate (places + 1 - digits.length) '0' ++ digits
    let whole := padded.length - places
    String.ofList (padded.take whole ++ '.' :: padded.drop whole)

/-- Writes the numeral with one digit before the point and a signed exponent. -/
def scientific (d : Decimal) : String :=
  let digits := Nat.toDigits 10 d.digits
  let power : Int := d.exponent + ((digits.length : Int) - 1)
  let mantissa := match digits with
    | first :: second :: rest => first :: '.' :: second :: rest
    | short => short
  let sign := if power < 0 then '-' else '+'
  String.ofList (mantissa ++ 'e' :: sign :: Nat.toDigits 10 power.natAbs)

/-- The power of ten of the leading digit. -/
def leadingPower (d : Decimal) : Int := d.exponent + ((decimalLength d.digits : Int) - 1)

end Decimal

/-- The choices of one output format for double-precision numbers. -/
structure NumeralStyle where
  /-- The powers of ten of the leading digit that are written without an exponent. -/
  positional : Int → Bool
  /-- Whether a whole number keeps `.0` when it is written without an exponent. -/
  pointZero : Bool
  tie : TieRule
  /-- What stands for a number that is not finite. -/
  special : Binary64 → String

namespace Binary64

/-- A number in a style: a sign for every negative word, zeros included, then the
    shortest numeral. -/
def render (style : NumeralStyle) (x : Binary64) : String :=
  if x.isFinite then
    let sign := if x.negative then "-" else ""
    let d := if x.isZero then ⟨0, 0⟩ else (x.shortest style.tie).trimZeros
    if style.positional d.leadingPower then
      let body := d.positional
      sign ++ body ++ (if style.pointZero && decide (0 ≤ d.exponent) then ".0" else "")
    else sign ++ d.scientific
  else style.special x

end Binary64

/-! ## Reading -/

namespace Decimal

/-- The number written by a list of digits. -/
def digitsValue (cs : List Char) : Nat :=
  cs.foldl (fun n c => 10 * n + (c.toNat - '0'.toNat)) 0

/-- An exponent: an optional sign and at least one digit. -/
def exponentOfText? : List Char → Option Int
  | '+' :: cs => if cs ≠ [] ∧ cs.all Char.isDigit then some (digitsValue cs) else none
  | '-' :: cs => if cs ≠ [] ∧ cs.all Char.isDigit then some (-(digitsValue cs : Int)) else none
  | cs => if cs ≠ [] ∧ cs.all Char.isDigit then some (digitsValue cs) else none

/-- An unsigned numeral: digits with an optional point anywhere among them, at least one
    digit in all, then an optional exponent. -/
def ofText? (cs : List Char) : Option Decimal :=
  let whole := cs.takeWhile Char.isDigit
  let afterWhole := cs.dropWhile Char.isDigit
  let (places, rest) := match afterWhole with
    | '.' :: more => (more.takeWhile Char.isDigit, more.dropWhile Char.isDigit)
    | other => ([], other)
  if whole = [] ∧ places = [] then none
  else
    let digits := digitsValue (whole ++ places)
    match rest with
    | [] => some ⟨digits, -(places.length : Int)⟩
    | c :: power =>
      if c = 'e' ∨ c = 'E' then
        (exponentOfText? power).map fun e => ⟨digits, e - (places.length : Int)⟩
      else none

/-- The double-precision number nearest to a decimal. Powers far outside the range are
    settled by the place of the leading digit alone. -/
def toBinary64 (negative : Bool) (d : Decimal) : Binary64 :=
  if d.digits = 0 then .zero negative
  else if 310 < d.leadingPower then .infinity negative
  else if d.leadingPower < -330 then .zero negative
  else if 0 ≤ d.exponent then .ofRatio negative (d.digits * Nat.pow 10 d.exponent.toNat) 1
  else .ofRatio negative d.digits (Nat.pow 10 (-d.exponent).toNat)

end Decimal

/-- Whether a text is a word in either case, ASCII letters only. -/
private def isWordIgnoringCase (word : String) (cs : List Char) : Bool :=
  cs.map Char.toLower == word.toList

/-- Reads a number from text: an optional sign, then a numeral, or a word for infinity or
    not-a-number in any case. -/
def Binary64.ofText? (text : String) : Option Binary64 :=
  let (negative, body) := match text.toList with
    | '-' :: cs => (true, cs)
    | '+' :: cs => (false, cs)
    | cs => (false, cs)
  if isWordIgnoringCase "inf" body || isWordIgnoringCase "infinity" body then
    some (.infinity negative)
  else if isWordIgnoringCase "nan" body then
    some (if negative then Binary64.nan.neg else .nan)
  else (Decimal.ofText? body).map (·.toBinary64 negative)

end ProfileMigration
