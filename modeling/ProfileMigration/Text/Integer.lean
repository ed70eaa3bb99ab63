/-
  ProfileMigration.Text.Integer

  Decimal integers in text: an optional sign and ASCII digits, nothing else.

    Text.toInt?     -- any size
    Text.toInt64?   -- within the signed 64-bit range
    Text.toNat64?   -- within the unsigned 64-bit range, a minus sign refused

  `as_i64` and `coerce_scalar` take integers from text in this way.
-/
import ProfileMigration.Numeric.Decimal

namespace ProfileMigration

/-- The 64-bit integer equal to an integer, when there is one. -/
def int64? (n : Int) : Option Int64 :=
  if Int64.minValue.toInt ≤ n ∧ n ≤ Int64.maxValue.toInt then some (Int64.ofInt n) else none

namespace Text

/-- The number written by one or more ASCII digits. -/
def digits? (cs : List Char) : Option Nat :=
  if cs ≠ [] ∧ cs.all Char.isDigit then some (Decimal.digitsValue cs) else none

/-- An integer with an optional sign. -/
def toInt? (s : String) : Option Int :=
  match s.toList with
  | '-' :: cs => (digits? cs).map fun n => -(n : Int)
  | '+' :: cs => (digits? cs).map Int.ofNat
  | cs => (digits? cs).map Int.ofNat

/-- An integer with an optional sign, if it fits in 64 signed bits. -/
def toInt64? (s : String) : Option Int64 := (toInt? s).bind int64?

/-- A natural number with an optional plus sign, if it fits in 64 bits. -/
def toNat64? (s : String) : Option Nat :=
  let value := match s.toList with
    | '+' :: cs => digits? cs
    | cs => digits? cs
  value.filter (· < UInt64.size)

end Text

end ProfileMigration
