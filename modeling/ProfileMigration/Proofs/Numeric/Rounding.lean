/-
  ProfileMigration.Proofs.Numeric.Rounding

  Integers of sixty-four bits as double-precision numbers:

    Binary64.roundHalfEven_bounds       -- a rounded quotient is the quotient or one more
    Binary64.exponentField_ofInt        -- where an integer with its highest bit set ends up
    Binary64.toInt64_of_large           -- what is past the signed range becomes the end of it
    Binary64.toInt64_ofInt_of_large     -- and so does such an integer
-/
import Mathlib.Algebra.Group.Nat.Defs
import ProfileMigration.Numeric.Binary64

namespace ProfileMigration.Binary64

/-! ## Rounding -/

/-- A quotient is rounded down or up. -/
theorem roundHalfEven_bounds (num den : Nat) :
    num / den ≤ roundHalfEven num den ∧ roundHalfEven num den ≤ num / den + 1 := by
  rw [roundHalfEven]
  split
  · omega
  · split
    · omega
    · omega

theorem floorLog2_one {n : Nat} (h : n ≠ 0) : floorLog2 n 1 = n.log2 := by
  have hone : Nat.log2 1 = 0 := by decide
  have hguess : (n.log2 : Int) - (Nat.log2 1 : Nat) = n.log2 := by rw [hone]; omega
  have hreached : if 0 ≤ (n.log2 : Int) then 1 <<< (n.log2 : Int).toNat ≤ n
      else 1 ≤ n <<< (-(n.log2 : Int)).toNat := by
    rw [if_pos (Int.natCast_nonneg _), Int.toNat_natCast, Nat.one_shiftLeft]
    exact Nat.log2_self_le h
  rw [floorLog2, hguess]
  exact if_pos hreached

variable {n : Nat}

/-- An integer whose highest bit is set is rounded to a multiple of `2 ^ 11`. -/
theorem lastPlace_of_large (h : 2 ^ 63 ≤ n) (hn : n < 2 ^ 64) : lastPlace n 1 = 11 := by
  have hne : n ≠ 0 := by omega
  have hlog : n.log2 = 63 := (Nat.log2_eq_iff hne).mpr ⟨h, hn⟩
  rw [lastPlace, floorLog2_one hne, hlog]
  decide

theorem roundedMagnitude_of_large (h : 2 ^ 63 ≤ n) (hn : n < 2 ^ 64) :
    1086 * 2 ^ 52 ≤ roundedMagnitude n 1 ∧ roundedMagnitude n 1 ≤ 1087 * 2 ^ 52 := by
  have hne : n ≠ 0 := by omega
  have hden : (1 : Nat) <<< 11 = 2048 := by decide
  have hhidden : hiddenBit = 2 ^ 52 := by decide
  have hplace : (11 + 1074 : Int).toNat = 1085 := by decide
  -- The count of units has fifty-three bits, or is the power of two above them
  have hunits := roundHalfEven_bounds n 2048
  rw [roundedMagnitude, if_neg hne, lastPlace_of_large h hn]
  dsimp only
  rw [if_pos (by decide), infiniteMagnitude, hhidden, hplace]
  have heleven : (11 : Int).toNat = 11 := rfl
  rw [heleven, hden]
  omega

/-- Such an integer has one of two exponents, and no sign. -/
theorem exponentField_ofInt (h : 2 ^ 63 ≤ n) (hn : n < 2 ^ 64) :
    (ofInt n).negative = false ∧ 1086 ≤ (ofInt n).exponentField ∧
      (ofInt n).exponentField ≤ 1087 := by
  obtain ⟨hlow, hhigh⟩ := roundedMagnitude_of_large h hn
  have hword : ofInt n = ⟨BitVec.ofNat 64 (roundedMagnitude n 1)⟩ := by
    have hsign : decide ((n : Int) < 0) = false := decide_eq_false (by omega)
    rw [ofInt, hsign, Int.natAbs_natCast, ofRatio, ofMagnitude, if_neg Bool.false_ne_true,
      Nat.zero_add]
  have hbits : (ofInt n).bits.toNat = roundedMagnitude n 1 := by
    rw [hword]
    exact Nat.mod_eq_of_lt (by omega)
  refine ⟨?_, ?_⟩
  · rw [negative, BitVec.msb_eq_false_iff_two_mul_lt, hbits]
    omega
  · rw [exponentField, hbits, Nat.shiftRight_eq_div_pow]
    omega

/-! ## Past the signed range -/

/-- A double of at least `2 ^ 63` is whole, and its nearest integer is the largest one. -/
theorem toInt64_of_large {x : Binary64} (hsign : x.negative = false)
    (hlow : 1086 ≤ x.exponentField) (hhigh : x.exponentField < 2047) :
    x.isWhole = true ∧ x.toInt64 = Int64.maxValue := by
  have hexponent : x.exponent = ((x.exponentField - 1075 : Nat) : Int) := by
    rw [exponent, if_neg (by omega)]
    omega
  have hsignificand : 2 ^ 52 ≤ x.significand := by
    have hhidden : hiddenBit = 2 ^ 52 := by decide
    rw [significand, if_neg (by omega), hhidden]
    exact Nat.le_add_right _ _
  obtain ⟨whole, hratio, hwhole⟩ : ∃ whole, x.ratio = (whole, 1) ∧ 2 ^ 63 ≤ whole := by
    refine ⟨x.significand * 2 ^ (x.exponentField - 1075), ?_, ?_⟩
    · rw [ratio, hexponent, if_pos (Int.natCast_nonneg _), Int.toNat_natCast, Nat.shiftLeft_eq]
    · have hpower : 2 ^ 11 ≤ 2 ^ (x.exponentField - 1075) :=
        Nat.pow_le_pow_right (by decide) (by omega)
      calc 2 ^ 63 = 2 ^ 52 * 2 ^ 11 := Nat.pow_add 2 52 11
        _ ≤ x.significand * 2 ^ (x.exponentField - 1075) := Nat.mul_le_mul hsignificand hpower
  have hspecial : (x.exponentField == 2047) = false := beq_eq_false_iff_ne.mpr (by omega)
  constructor
  · rw [isWhole, isFinite, bne, hspecial, hratio]
    dsimp only
    rw [Nat.mod_one]
    rfl
  · have htruncate : Int64.maxValue.toInt ≤ x.truncate := by
      have hmax : Int64.maxValue.toInt = 2 ^ 63 - 1 := by decide
      rw [truncate, hratio, hsign, hmax, if_neg Bool.false_ne_true]
      dsimp only
      omega
    have hends : max Int64.minValue.toInt Int64.maxValue.toInt = Int64.maxValue.toInt := by decide
    rw [toInt64, isNaN, isInfinite, hspecial, Bool.false_and, if_neg Bool.false_ne_true,
      Bool.false_and, if_neg Bool.false_ne_true, Int.min_eq_left htruncate, hends,
      Int64.ofInt_toInt]

/-- An integer past the signed range becomes the end of it, by way of its double. -/
theorem toInt64_ofInt_of_large {n : Int} (h : Int64.maxValue.toInt < n) (hn : n < UInt64.size) :
    (ofInt n).isWhole = true ∧ (ofInt n).toInt64 = Int64.maxValue := by
  have hmax : Int64.maxValue.toInt = 2 ^ 63 - 1 := by decide
  have hsize : UInt64.size = 2 ^ 64 := by decide
  rw [hmax] at h
  rw [hsize] at hn
  have hnat : n = (n.toNat : Int) := (Int.toNat_of_nonneg (by omega)).symm
  rw [hnat]
  obtain ⟨hsign, hlow, hhigh⟩ := exponentField_ofInt (n := n.toNat) (by omega) (by omega)
  exact toInt64_of_large hsign hlow (by omega)

end ProfileMigration.Binary64
