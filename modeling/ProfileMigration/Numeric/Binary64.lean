/-
  ProfileMigration.Numeric.Binary64

  Double-precision numbers as 64-bit words, with exact arithmetic on their values:

    Binary64.fraction / exponentField   -- the fields of the word
    Binary64.significand / exponent     -- the magnitude is `significand * 2 ^ exponent`
    Binary64.ofRatio                    -- nearest number to a quotient, ties to even
    Binary64.mul / div                  -- rounded once, from the exact product and quotient
    Binary64.isWhole / toInt64          -- whole values, and their nearest 64-bit integer

  Nothing here uses machine floating point, so every value can be computed in a proof.

  `as_i64` of a `Literal` and `coerce_scalar` read such numbers as integers.
-/

namespace ProfileMigration

/-- A double-precision number, held as its 64-bit word: sign, eleven exponent bits and
    fifty-two fraction bits. Two numbers are equal when their words are. -/
structure Binary64 where
  bits : BitVec 64
deriving DecidableEq, Repr

namespace Binary64

/-! ## The fields of the word -/

/-- The sign bit. -/
def negative (x : Binary64) : Bool := x.bits.msb

/-- The eleven exponent bits. -/
def exponentField (x : Binary64) : Nat := x.bits.toNat >>> 52 % 2048

/-- The bit above the fifty-two fraction bits. -/
def hiddenBit : Nat := 1 <<< 52

/-- The fifty-two fraction bits. -/
def fraction (x : Binary64) : Nat := x.bits.toNat % hiddenBit

/-- Neither an infinity nor a NaN. -/
def isFinite (x : Binary64) : Bool := x.exponentField != 2047

/-- All exponent bits set and a fraction. -/
def isNaN (x : Binary64) : Bool := x.exponentField == 2047 && x.fraction != 0

/-- All exponent bits set and no fraction. -/
def isInfinite (x : Binary64) : Bool := x.exponentField == 2047 && x.fraction == 0

/-- A zero of either sign. -/
def isZero (x : Binary64) : Bool := x.exponentField == 0 && x.fraction == 0

/-- The integer factor of the magnitude: the hidden bit is there unless the exponent
    bits are all clear. -/
def significand (x : Binary64) : Nat :=
  if x.exponentField = 0 then x.fraction else hiddenBit + x.fraction

/-- The power of two of the magnitude. -/
def exponent (x : Binary64) : Int :=
  if x.exponentField = 0 then -1074 else (x.exponentField : Int) - 1075

/-- The magnitude of a finite number as a quotient of two integers. -/
def ratio (x : Binary64) : Nat × Nat :=
  if 0 ≤ x.exponent then (x.significand <<< x.exponent.toNat, 1)
  else (x.significand, 1 <<< (-x.exponent).toNat)

/-! ## Building words -/

/-- The word with a given sign and magnitude bits. -/
def ofMagnitude (negative : Bool) (magnitude : Nat) : Binary64 :=
  ⟨BitVec.ofNat 64 ((if negative then 1 <<< 63 else 0) + magnitude)⟩

/-- The magnitude bits shared by both infinities; every finite magnitude is below them. -/
def infiniteMagnitude : Nat := 2047 * hiddenBit

/-- The infinity of a given sign. -/
def infinity (negative : Bool) : Binary64 := ofMagnitude negative infiniteMagnitude

/-- The zero of a given sign. -/
def zero (negative : Bool) : Binary64 := ofMagnitude negative 0

/-- The quiet NaN without a payload. -/
def nan : Binary64 := ofMagnitude false (infiniteMagnitude + hiddenBit / 2)

/-- The same number with the other sign. -/
def neg (x : Binary64) : Binary64 := ⟨x.bits ^^^ BitVec.twoPow 64 63⟩

/-! ## Rounding -/

/-- The integer nearest to `num / den`; a half goes to the even neighbour. -/
def roundHalfEven (num den : Nat) : Nat :=
  let floor := num / den
  let rest := num % den
  if 2 * rest < den then floor
  else if den < 2 * rest then floor + 1
  else floor + floor % 2

/-- The exponent of the largest power of two that is at most `num / den`. -/
def floorLog2 (num den : Nat) : Int :=
  -- The difference of the two logarithms is right or one too large
  let guess : Int := (num.log2 : Int) - den.log2
  let reached :=
    if 0 ≤ guess then den <<< guess.toNat ≤ num else den ≤ num <<< (-guess).toNat
  if reached then guess else guess - 1

/-- The power of two that the last bit of a rounded quotient stands for: fifty-two places
    below the leading bit, and never below the smallest subnormal. -/
def lastPlace (num den : Nat) : Int := max (floorLog2 num den - 52) (-1074)

/-- The magnitude bits of the number nearest to `num / den`. With the last bit worth
    `2 ^ q`, the magnitude bits are `(q + 1074) * hiddenBit` plus the rounded count of such
    units: a subnormal has `q = -1074`, a normal one carries its hidden bit into the
    exponent field, and so does a count that rounds up to the next power of two. -/
def roundedMagnitude (num den : Nat) : Nat :=
  if num = 0 then 0
  else
    let q := lastPlace num den
    let units :=
      if 0 ≤ q then roundHalfEven num (den <<< q.toNat)
      else roundHalfEven (num <<< (-q).toNat) den
    min ((q + 1074).toNat * hiddenBit + units) infiniteMagnitude

/-- The number nearest to `num / den` with the given sign; ties go to the even word, and
    quotients past the largest finite number become infinite. -/
def ofRatio (negative : Bool) (num den : Nat) : Binary64 :=
  ofMagnitude negative (roundedMagnitude num den)

/-- The number nearest to an integer. -/
def ofInt (n : Int) : Binary64 := ofRatio (decide (n < 0)) n.natAbs 1

/-! ## Arithmetic on finite magnitudes -/

/-- The rounded product of two finite numbers. -/
def mul (x y : Binary64) : Binary64 :=
  ofRatio (x.negative != y.negative) (x.ratio.1 * y.ratio.1) (x.ratio.2 * y.ratio.2)

/-- The rounded quotient of two finite numbers, the second not zero. -/
def div (x y : Binary64) : Binary64 :=
  ofRatio (x.negative != y.negative) (x.ratio.1 * y.ratio.2) (x.ratio.2 * y.ratio.1)

/-! ## Whole values -/

/-- Finite and without a fractional part. -/
def isWhole (x : Binary64) : Bool := x.isFinite && x.ratio.1 % x.ratio.2 == 0

/-- The whole part toward zero of a finite number. -/
def truncate (x : Binary64) : Int :=
  let whole : Int := x.ratio.1 / x.ratio.2
  if x.negative then -whole else whole

/-- The nearest 64-bit integer toward zero: values out of range go to the end of the range
    they pass, a NaN to zero. -/
def toInt64 (x : Binary64) : Int64 :=
  if x.isNaN then 0
  else if x.isInfinite then (if x.negative then Int64.minValue else Int64.maxValue)
  else Int64.ofInt (max Int64.minValue.toInt (min Int64.maxValue.toInt x.truncate))

end Binary64

end ProfileMigration
