/-
  ProfileMigration.Proofs.Json.Numeral

  The decimal digits of integers, and the numbers of JSON documents that read back from their
  text:

    Decimal.digitsValue_toDigits    -- digits have the value that they were written for
    Decimal.head?_toDigits          -- only zero begins with a zero
    Decimal.toDigits_digitsValue    -- and what does not is written in no other way
    Number.absorb_of_lt             -- digits of a number below the bound are all taken
    Number.ofText?_text_int         -- an exact integer reads back from its text
    Number.isLegible                -- so does a number that is legible
    Numeral.plain_of_ofText?        -- a numeral has digits, signs, points and exponents only

  A double reads back only if scaling its digits by the power of ten meets it again.
-/
import Mathlib.Data.List.TakeWhile
import ProfileMigration.Json.Token

namespace ProfileMigration

/-! ## Digits -/

namespace Decimal

theorem digitsValue_toDigits (n : Nat) : digitsValue (Nat.toDigits 10 n) = n :=
  Nat.ofDigitChars_ten_toDigits

theorem all_isDigit_toDigits (n : Nat) : (Nat.toDigits 10 n).all Char.isDigit = true :=
  List.all_eq_true.mpr fun _ hc => Nat.isDigit_of_mem_toDigits (by decide) (by decide) hc

/-- Only zero begins with a zero. -/
theorem head?_toDigits {n : Nat} (h : (Nat.toDigits 10 n).head? = some '0') : n = 0 := by
  induction n using Nat.strongRecOn with
  | ind n ih =>
    rw [Nat.toDigits_eq_if (by decide)] at h
    split at h
    · rw [List.head?_cons, Option.some.injEq] at h
      exact Nat.digitChar_eq_zero.mp h
    · -- The leading digit is that of the quotient, which is not zero
      rw [List.head?_append] at h
      have hhead : (Nat.toDigits 10 (n / 10)).head? = some '0' := by
        cases hdigits : Nat.toDigits 10 (n / 10) with
        | nil => exact absurd hdigits Nat.toDigits_ne_nil
        | cons c cs =>
          rw [hdigits] at h
          exact h
      have hquotient := ih (n / 10) (by omega) hhead
      omega

theorem no_leading_zero (n : Nat) :
    ¬ ((Nat.toDigits 10 n).head? = some '0' ∧ 1 < (Nat.toDigits 10 n).length) := by
  rintro ⟨hhead, hlength⟩
  obtain rfl := head?_toDigits hhead
  rw [Nat.toDigits_zero] at hlength
  exact absurd hlength (by decide)

theorem digitChar_of_isDigit {c : Char} (h : c.isDigit = true) :
    c.toNat - '0'.toNat < 10 ∧ (c.toNat - '0'.toNat).digitChar = c := by
  have hchars : ∀ k < 10, (k.digitChar).toNat = k + '0'.toNat := by decide
  have hrange : '0'.toNat ≤ c.toNat ∧ c.toNat ≤ '9'.toNat := by
    simpa [Char.isDigit, Char.le_def, UInt32.le_iff_toNat_le] using h
  have hdigit : c.toNat - '0'.toNat < 10 := by
    have hnine : '9'.toNat = '0'.toNat + 9 := rfl
    omega
  refine ⟨hdigit, Char.toNat_inj.mp ?_⟩
  rw [hchars _ hdigit]
  omega

/-- Digits behind a number that is not zero are the digits of what they make of it. -/
theorem toDigits_foldl {cs : List Char} {n : Nat} (hpos : 0 < n)
    (hdigits : ∀ c ∈ cs, c.isDigit = true) :
    Nat.toDigits 10 (cs.foldl (fun n c => 10 * n + (c.toNat - '0'.toNat)) n) =
      Nat.toDigits 10 n ++ cs := by
  induction cs generalizing n with
  | nil => rw [List.foldl_nil, List.append_nil]
  | cons c rest ih =>
    obtain ⟨hc, hrest⟩ := List.forall_mem_cons.mp hdigits
    obtain ⟨hlt, hchar⟩ := digitChar_of_isDigit hc
    rw [List.foldl_cons, ih (by omega) hrest, ← Nat.toDigits_append_toDigits (by decide) hpos hlt,
      Nat.toDigits_of_lt_base hlt, hchar, List.append_assoc, List.singleton_append]

/-- Digits that begin with no zero are those of their value. -/
theorem toDigits_digitsValue {c : Char} {cs : List Char}
    (hdigits : ∀ d ∈ c :: cs, d.isDigit = true) (hc : c ≠ '0') :
    Nat.toDigits 10 (digitsValue (c :: cs)) = c :: cs := by
  obtain ⟨hfirst, hrest⟩ := List.forall_mem_cons.mp hdigits
  obtain ⟨hlt, hchar⟩ := digitChar_of_isDigit hfirst
  have hpos : 0 < c.toNat - '0'.toNat := by
    rw [Nat.pos_iff_ne_zero]
    intro hzero
    rw [hzero] at hchar
    exact hc hchar.symm
  have hvalue : digitsValue (c :: cs) = cs.foldl (fun n c => 10 * n + (c.toNat - '0'.toNat))
      (c.toNat - '0'.toNat) := by
    rw [digitsValue, List.foldl_cons, Nat.mul_zero, Nat.zero_add]
  rw [hvalue, toDigits_foldl hpos hrest, Nat.toDigits_of_lt_base hlt, hchar, List.singleton_append]

end Decimal

/-! ## Numerals without point or exponent -/

theorem le_ofDigitChars (cs : List Char) (n : Nat) : n ≤ Nat.ofDigitChars 10 cs n := by
  induction cs generalizing n with
  | nil => exact Nat.le_refl n
  | cons c cs ih =>
    rw [Nat.ofDigitChars_cons]
    have hstep := ih (10 * n + (c.toNat - '0'.toNat))
    omega

/-- All digits of a number below the bound are taken. -/
theorem Number.absorb_of_lt {cs : List Char} {n : Nat}
    (h : Nat.ofDigitChars 10 cs n < UInt64.size) :
    absorb n cs = (Nat.ofDigitChars 10 cs n, []) := by
  induction cs generalizing n with
  | nil => rfl
  | cons c cs ih =>
    rw [Nat.ofDigitChars_cons] at h ⊢
    have hnext := le_ofDigitChars cs (10 * n + (c.toNat - '0'.toNat))
    have hlt : 10 * n + (c.toNat - '0'.toNat) < UInt64.size := by omega
    rw [absorb, if_pos hlt, ih h]

namespace Numeral

/-- The digits of a number are a numeral. -/
theorem unsigned?_toDigits (negative : Bool) (n : Nat) :
    unsigned? negative (Nat.toDigits 10 n) = some ⟨negative, Nat.toDigits 10 n, [], none⟩ := by
  have hall : ∀ c ∈ Nat.toDigits 10 n, c.isDigit = true :=
    List.all_eq_true.mp (Decimal.all_isDigit_toDigits n)
  have htake : (Nat.toDigits 10 n).takeWhile Char.isDigit = Nat.toDigits 10 n :=
    List.takeWhile_eq_self_iff.mpr hall
  have hdrop : (Nat.toDigits 10 n).dropWhile Char.isDigit = [] :=
    List.dropWhile_eq_nil_iff.mpr hall
  have hshape : ¬ (Nat.toDigits 10 n = [] ∨
      ((Nat.toDigits 10 n).head? = some '0' ∧ 1 < (Nat.toDigits 10 n).length)) := by
    rintro (hnil | hzero)
    · exact Nat.toDigits_ne_nil hnil
    · exact Decimal.no_leading_zero n hzero
  rw [unsigned?, htake, hdrop]
  dsimp only
  rw [if_neg hshape]
  rfl

/-- They stand for the number, or its negative. -/
theorem number?_toDigits (negative : Bool) {n : Nat} (h : n < UInt64.size) :
    number? ⟨negative, Nat.toDigits 10 n, [], none⟩ = Number.ofWhole negative n := by
  have habsorb : Number.absorb 0 (Nat.toDigits 10 n) = (n, []) := by
    have hvalue : Nat.ofDigitChars 10 (Nat.toDigits 10 n) 0 = n := Nat.ofDigitChars_ten_toDigits
    rw [← hvalue] at h
    rw [Number.absorb_of_lt h, hvalue]
  rw [number?, habsorb]
  dsimp only
  rw [if_pos ⟨rfl, rfl, rfl⟩]

end Numeral

namespace Number

theorem ofText?_toDigits {n : Nat} (h : n < UInt64.size) :
    ofText? (Nat.toDigits 10 n) = ofWhole false n := by
  have hunsigned : Numeral.ofText? (Nat.toDigits 10 n) =
      Numeral.unsigned? false (Nat.toDigits 10 n) := by
    rw [Numeral.ofText?]
    intro cs hcs
    have hminus := Nat.isDigit_of_mem_toDigits (b := 10) (n := n) (c := '-') (by decide) (by decide)
      (by rw [hcs]; exact List.mem_cons_self)
    exact absurd hminus (by decide)
  rw [ofText?, hunsigned, Numeral.unsigned?_toDigits]
  exact Numeral.number?_toDigits false h

/-- An exact integer reads back from its text. -/
theorem ofText?_text_int (n : ExactInt) : ofText? (int n).text.toList = some (int n) := by
  obtain ⟨val, hlower, hupper⟩ := n
  rw [text, Int.toString_eq_repr, Int.repr_eq_if]
  dsimp only
  have hsize : (UInt64.size : Int) = 18446744073709551616 := rfl
  have hmin : Int64.minValue.toInt = -9223372036854775808 := by decide
  split
  · rename_i hsign
    have hval : ((val.toNat : Nat) : Int) = val := Int.toNat_of_nonneg hsign
    rw [Nat.toList_repr, ofText?_toDigits (by omega), ofWhole, if_neg (by decide), hval,
      ExactInt.ofInt?, dif_pos ⟨hlower, hupper⟩]
    rfl
  · rename_i hsign
    have hval : -(((-val).toNat : Nat) : Int) = val := by omega
    have hread : ofText? ('-' :: Nat.toDigits 10 (-val).toNat) = ofWhole true (-val).toNat := by
      rw [ofText?, Numeral.ofText?, Numeral.unsigned?_toDigits]
      exact Numeral.number?_toDigits true (by omega)
    have htext : ("-" ++ (-val).toNat.repr).toList = '-' :: Nat.toDigits 10 (-val).toNat := by
      rw [String.toList_append, Nat.toList_repr]
      rfl
    rw [htext, hread, ofWhole, if_pos rfl, if_neg (by omega), hval, ExactInt.ofInt?,
      dif_pos ⟨hlower, hupper⟩]

/-- An exact integer, or a double that reads back from its digits. -/
def isLegible : Number → Bool
  | .int _ => true
  | .float x finite => ofText? (float x finite).text.toList = some (float x finite)

/-- A legible number reads back from its text. -/
theorem ofText?_text {n : Number} (h : n.isLegible = true) : ofText? n.text.toList = some n := by
  cases n with
  | int n => exact ofText?_text_int n
  | float x finite => exact of_decide_eq_true h

end Number

/-! ## Characters of numerals -/

/-- A character that may stand in a numeral. -/
def Numeral.Plain (c : Char) : Prop := c.isDigit = true ∨ c ∈ ['-', '+', '.', 'e', 'E']

theorem Exponent.plain_of_ofText? {cs : List Char} {e : Exponent} (h : ofText? cs = some e) :
    ∀ c ∈ cs, Numeral.Plain c := by
  have hdigits : ∀ {negative : Bool} {digits : List Char},
      (if digits = [] ∨ !digits.all Char.isDigit then none
        else some (⟨negative, digits⟩ : Exponent)) = some e →
      ∀ c ∈ digits, Numeral.Plain c := by
    intro negative digits h c hc
    split at h
    · cases h
    · rename_i hshape
      rw [not_or, Bool.not_eq_true, Bool.not_eq_false'] at hshape
      exact .inl (List.all_eq_true.mp hshape.2 c hc)
  unfold ofText? at h
  split at h
  rename_i hsplit
  split at hsplit
  · obtain ⟨-, rfl⟩ := Prod.mk.inj hsplit
    exact List.forall_mem_cons.mpr ⟨.inr (by decide), hdigits h⟩
  · obtain ⟨-, rfl⟩ := Prod.mk.inj hsplit
    exact List.forall_mem_cons.mpr ⟨.inr (by decide), hdigits h⟩
  · obtain ⟨-, rfl⟩ := Prod.mk.inj hsplit
    exact hdigits h

theorem Exponent.plain_of_trailing? {cs : List Char} {e : Option Exponent}
    (h : trailing? cs = some e) : ∀ c ∈ cs, Numeral.Plain c := by
  cases cs with
  | nil => exact List.forall_mem_nil _
  | cons c cs =>
    rw [trailing?] at h
    split at h
    · rename_i hletter
      obtain ⟨e', he, -⟩ := Option.map_eq_some_iff.mp h
      refine List.forall_mem_cons.mpr ⟨.inr ?_, plain_of_ofText? he⟩
      rcases hletter with rfl | rfl <;> decide
    · cases h

namespace Numeral

theorem plain_of_unsigned? {negative : Bool} {cs : List Char} {n : Numeral}
    (h : unsigned? negative cs = some n) : cs ≠ [] ∧ ∀ c ∈ cs, Plain c := by
  have hdigits : ∀ ds : List Char, ∀ c ∈ ds.takeWhile Char.isDigit, Plain c :=
    fun ds c hc => .inl (List.mem_takeWhile_imp hc)
  rw [unsigned?] at h
  dsimp only at h
  split at h
  · cases h
  · rename_i hshape
    rw [not_or] at hshape
    refine ⟨fun hnil => hshape.1 (by rw [hnil]; rfl), ?_⟩
    rw [← List.takeWhile_append_dropWhile (p := Char.isDigit) (l := cs)]
    refine List.forall_mem_append.mpr ⟨hdigits cs, ?_⟩
    split at h
    · rename_i more hmore
      rw [hmore]
      refine List.forall_mem_cons.mpr ⟨.inr (by decide), ?_⟩
      split at h
      · cases h
      · obtain ⟨e, he, -⟩ := Option.map_eq_some_iff.mp h
        rw [← List.takeWhile_append_dropWhile (p := Char.isDigit) (l := more)]
        exact List.forall_mem_append.mpr ⟨hdigits more, Exponent.plain_of_trailing? he⟩
    · obtain ⟨e, he, -⟩ := Option.map_eq_some_iff.mp h
      exact Exponent.plain_of_trailing? he

/-- A numeral has digits, signs, points and exponents only. -/
theorem plain_of_ofText? {cs : List Char} {n : Numeral} (h : ofText? cs = some n) :
    cs ≠ [] ∧ ∀ c ∈ cs, Plain c := by
  unfold ofText? at h
  split at h
  · exact ⟨List.cons_ne_nil _ _,
      List.forall_mem_cons.mpr ⟨.inr (by decide), (plain_of_unsigned? h).2⟩⟩
  · exact plain_of_unsigned? h

end Numeral

end ProfileMigration
