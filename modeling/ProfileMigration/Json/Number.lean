/-
  ProfileMigration.Json.Number

  Numbers of JSON documents: integers of the two 64-bit ranges are exact, everything else is
  a finite double-precision number.

    ExactInt            -- -2^63 ≤ n < 2^64
    Number              -- exact integer or finite double
    Numeral             -- a number as it is written, whatever its size
    Number.ofText?      -- reads a number's text
    Number.text         -- writes it; a double is never mistaken for an integer

  Reading keeps as many leading digits as fit in 64 bits and scales them by a power of ten
  with one rounded product or quotient, so the result may differ from the nearest double in
  its last bit.

  `normalize_leaf`, `coerce_scalar` and `Literal` lean on how a number was read.
-/
import ProfileMigration.Numeric.Decimal

namespace ProfileMigration

/-- An integer that a JSON document holds exactly. -/
structure ExactInt where
  val : Int
  lower : Int64.minValue.toInt ≤ val
  upper : val < UInt64.size
deriving DecidableEq

namespace ExactInt

/-- The exact integer of a given value, when it is in range. -/
def ofInt? (n : Int) : Option ExactInt :=
  if h : Int64.minValue.toInt ≤ n ∧ n < UInt64.size then some ⟨n, h.1, h.2⟩ else none

/-- Every signed 64-bit integer is exact. -/
def ofInt64 (n : Int64) : ExactInt :=
  ⟨n.toInt, n.le_toInt, Int.lt_trans n.toInt_lt (by decide)⟩

end ExactInt

/-- A number of a JSON document. -/
inductive Number where
  | int (n : ExactInt)
  | float (x : Binary64) (finite : x.isFinite = true)
deriving DecidableEq

namespace Number

/-- A double as a JSON number; infinities and NaNs have none. -/
def ofBinary64? (x : Binary64) : Option Number :=
  if h : x.isFinite = true then some (.float x h) else none

/-- The value as a signed 64-bit integer; doubles have none. -/
def toInt64? : Number → Option Int64
  | .int n => if n.val ≤ Int64.maxValue.toInt then some (Int64.ofInt n.val) else none
  | .float .. => none

/-- The value as a double. -/
def toBinary64 : Number → Binary64
  | .int n => .ofInt n.val
  | .float x _ => x

/-! ## Writing -/

/-- Doubles in JSON text: positional while the leading digit stands for `10^-5` up to
    `10^15`, always with a point or an exponent, ties to the even digit. -/
def doubleStyle : NumeralStyle where
  positional e := decide (-5 ≤ e ∧ e < 16)
  pointZero := true
  tie := .even
  special _ := "null"

/-- The text of a number. -/
def text : Number → String
  | .int n => toString n.val
  | .float x _ => x.render doubleStyle

/-! ## Reading -/

/-- Appends digits to a number while it stays below `2^64`; returns it with the digits left
    over. -/
def absorb (n : Nat) : List Char → Nat × List Char
  | [] => (n, [])
  | c :: cs =>
    let next := 10 * n + (c.toNat - '0'.toNat)
    if next < UInt64.size then absorb next cs else (n, c :: cs)

/-- The double nearest to a power of ten. -/
def powerOfTen (n : Nat) : Binary64 := .ofRatio false (Nat.pow 10 n) 1

/-- Multiplies by a power of ten, rounding at each step; powers below `10^-308` take several
    steps. None when the result is too large. -/
def scaleByTen (x : Binary64) (power : Int) : Option Binary64 :=
  if 308 < power then if x.isZero then some x else none
  else if 0 ≤ power then
    let product := x.mul (powerOfTen power.toNat)
    if product.isInfinite then none else some product
  else if -308 ≤ power then some (x.div (powerOfTen (-power).toNat))
  else if x.isZero then some x
  -- The largest power of ten that is a double
  else scaleByTen (x.div (powerOfTen 308)) (power + 308)
termination_by (-power).toNat
decreasing_by omega

/-- The double `± significand * 10 ^ power` as a number. -/
def scaled (negative : Bool) (significand : Nat) (power : Int) : Option Number := do
  let magnitude ← scaleByTen (.ofInt significand) power
  ofBinary64? (if negative then magnitude.neg else magnitude)

/-- Exponents above this bound are settled without scaling. -/
def exponentLimit : Nat := 0x7fffffff

/-- An integer without point or exponent: exact when it is in range, a double otherwise;
    minus zero is a double. -/
def ofWhole (negative : Bool) (significand : Nat) : Option Number :=
  if negative then
    -- No integer keeps the sign of minus zero
    if significand = 0 then ofBinary64? (.zero true)
    else match ExactInt.ofInt? (-(significand : Int)) with
      | some n => some (.int n)
      | none => ofBinary64? (.ofInt (-(significand : Int)))
  else (ExactInt.ofInt? significand).map .int

end Number

/-! ## Numerals -/

/-- The exponent of a numeral. -/
structure Exponent where
  negative : Bool
  digits : List Char
deriving DecidableEq

/-- A number as it is written: no numeral is refused for its size. -/
structure Numeral where
  negative : Bool
  whole : List Char
  /-- The digits behind the point; none where there is no point. -/
  places : List Char
  exponent : Option Exponent
deriving DecidableEq

namespace Exponent

/-- An optional sign and at least one digit. -/
def ofText? (cs : List Char) : Option Exponent :=
  let (negative, digits) := match cs with
    | '-' :: rest => (true, rest)
    | '+' :: rest => (false, rest)
    | rest => (false, rest)
  if digits = [] ∨ !digits.all Char.isDigit then none else some ⟨negative, digits⟩

/-- Nothing, or an exponent behind its letter. -/
def trailing? : List Char → Option (Option Exponent)
  | [] => some none
  | c :: cs => if c = 'e' ∨ c = 'E' then (ofText? cs).map some else none

end Exponent

namespace Numeral

/-- Digits without a needless leading zero, an optional point with at least one digit after
    it, an optional exponent. -/
def unsigned? (negative : Bool) (cs : List Char) : Option Numeral :=
  let whole := cs.takeWhile Char.isDigit
  if whole = [] ∨ (whole.head? = some '0' ∧ 1 < whole.length) then none
  else match cs.dropWhile Char.isDigit with
    | '.' :: more =>
      let places := more.takeWhile Char.isDigit
      if places = [] then none
      else (Exponent.trailing? (more.dropWhile Char.isDigit)).map (⟨negative, whole, places, ·⟩)
    | rest => (Exponent.trailing? rest).map (⟨negative, whole, [], ·⟩)

/-- A numeral, with an optional minus sign. -/
def ofText? : List Char → Option Numeral
  | '-' :: cs => unsigned? true cs
  | cs => unsigned? false cs

/-- Applies an exponent. -/
def withExponent (negative : Bool) (significand : Nat) (power : Int) (e : Exponent) :
    Option Number :=
  let exponent := Decimal.digitsValue e.digits
  if Number.exponentLimit < exponent then
    if significand ≠ 0 ∧ !e.negative then none else Number.ofBinary64? (.zero negative)
  else if e.negative then Number.scaled negative significand (power - exponent)
  else Number.scaled negative significand (power + exponent)

/-- The number of a numeral; none when it is too large. -/
def number? (n : Numeral) : Option Number :=
  let (leading, dropped) := Number.absorb 0 n.whole
  if n.places = [] ∧ n.exponent = none ∧ dropped = [] then Number.ofWhole n.negative leading
  else
    -- Places that no longer fit are dropped; they only cost precision
    let (significand, unused) := Number.absorb leading n.places
    let power : Int := (dropped.length : Int) - ((n.places.length - unused.length : Nat) : Int)
    match n.exponent with
    | none => Number.scaled n.negative significand power
    | some e => withExponent n.negative significand power e

end Numeral

/-- A number's text. -/
def Number.ofText? (cs : List Char) : Option Number := (Numeral.ofText? cs).bind Numeral.number?

end ProfileMigration
