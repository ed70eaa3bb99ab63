/-
  ProfileMigration.Proofs.Text.Integer

  Blanks around texts, and integers in text:

    Text.trim_trim              -- there is nothing left to trim
    Text.trim_eq_self_iff       -- nor is there where no blank stands at either end
    Text.trim_toString          -- and nothing around the text of an integer
    Text.toInt?_toString        -- an integer reads back from its text
    toInt_of_int64?             -- sixty-four bits hold an integer exactly, or not at all
-/
import Mathlib.Data.List.DropRight
import ProfileMigration.Proofs.Json.Numeral
import ProfileMigration.Text.Blank
import ProfileMigration.Text.Integer

namespace ProfileMigration

namespace Text

/-! ## Blanks -/

variable {cs : List Char}

theorem isBlank_of_isDigit {c : Char} (h : c.isDigit = true) : isBlank c = false := by
  have hdigit : 48 ≤ c.toNat ∧ c.toNat ≤ 57 := by
    rw [Char.isDigit, Bool.and_eq_true, decide_eq_true_iff, decide_eq_true_iff] at h
    exact h
  refine Bool.eq_false_iff.mpr fun hblank => ?_
  simp only [isBlank, Bool.or_eq_true, Bool.and_eq_true, decide_eq_true_iff, beq_iff_eq] at hblank
  omega

theorem trimStart_cons {c : Char} (h : isBlank c = false) (cs : List Char) :
    trimStart (c :: cs) = c :: cs := by
  rw [trimStart, List.dropWhile_cons, h]
  rfl

/-- Without blanks there is nothing to trim. -/
theorem trimStart_of_forall (h : ∀ c ∈ cs, isBlank c = false) : trimStart cs = cs := by
  cases cs with
  | nil => rfl
  | cons c rest => exact trimStart_cons (h c List.mem_cons_self) rest

theorem trimChars_of_forall (h : ∀ c ∈ cs, isBlank c = false) : trimChars cs = cs := by
  have hreverse : ∀ c ∈ cs.reverse, isBlank c = false := fun c hc => h c (List.mem_reverse.mp hc)
  rw [trimChars, trimStart_of_forall h, trimStart_of_forall hreverse, List.reverse_reverse]

theorem trimStart_trimStart (cs : List Char) : trimStart (trimStart cs) = trimStart cs :=
  List.dropWhile_idempotent isBlank cs

/-- What no blank leads has none at its head when some of its end is cut off. -/
theorem trimStart_of_prefix {ds : List Char} (h : ds <+: trimStart cs) : trimStart ds = ds := by
  cases ds with
  | nil => rfl
  | cons c rest =>
    obtain ⟨after, hafter⟩ := h
    have htrimmed := trimStart_trimStart cs
    rw [← hafter, List.cons_append] at htrimmed
    refine trimStart_cons (Bool.eq_false_iff.mpr fun hblank => ?_) rest
    -- Otherwise trimming again would make the text shorter
    rw [trimStart, List.dropWhile_cons, if_pos hblank] at htrimmed
    have hlength := (List.dropWhile_suffix isBlank (l := rest ++ after)).length_le
    rw [htrimmed, List.length_cons] at hlength
    exact absurd hlength (Nat.not_succ_le_self _)

theorem trimChars_trimChars (cs : List Char) : trimChars (trimChars cs) = trimChars cs := by
  have hprefix : trimChars cs <+: trimStart cs := List.rdropWhile_prefix isBlank _
  have hstart : trimStart (trimChars cs) = trimChars cs := trimStart_of_prefix hprefix
  rw [trimChars, hstart]
  exact List.rdropWhile_idempotent isBlank (trimStart cs)

theorem trim_trim (s : String) : trim (trim s) = trim s := by
  rw [trim, trim, String.toList_ofList, trimChars_trimChars]

theorem trimStart_eq_self_iff : trimStart cs = cs ↔ ∀ c, cs.head? = some c → isBlank c = false := by
  rw [trimStart, List.dropWhile_eq_self_iff]
  cases cs with
  | nil => exact iff_of_true (fun h => absurd h (Nat.lt_irrefl 0)) nofun
  | cons c rest =>
    simp only [List.length_cons, Nat.zero_lt_succ, List.getElem_cons_zero, forall_const,
      List.head?_cons, Option.some_inj, forall_eq', Bool.not_eq_true]

/-- No blank stands at either end of a text. -/
def BareEnds (s : String) : Prop :=
  ∀ c, s.toList.head? = some c ∨ s.toList.getLast? = some c → isBlank c = false

/-- These are the texts that trimming leaves as they are. -/
theorem trim_eq_self_iff {s : String} : trim s = s ↔ BareEnds s := by
  have hends : BareEnds s ↔
      trimStart s.toList = s.toList ∧ trimStart s.toList.reverse = s.toList.reverse := by
    rw [trimStart_eq_self_iff, trimStart_eq_self_iff, List.head?_reverse, ← forall_and]
    exact forall_congr' fun c => or_imp
  rw [hends]
  constructor
  · intro h
    have hchars : trimChars s.toList = s.toList := by
      rw [← String.toList_ofList (l := trimChars s.toList)]
      exact congrArg String.toList h
    -- Whatever is cut off at one end would be missing
    have hstart : trimStart s.toList = s.toList := by
      have hsuffix : trimStart s.toList <:+ s.toList := List.dropWhile_suffix isBlank
      have hlength := (List.dropWhile_suffix isBlank (l := (trimStart s.toList).reverse)).length_le
      have htrimmed := congrArg List.length hchars
      rw [trimChars, List.length_reverse] at htrimmed
      rw [List.length_reverse] at hlength
      refine hsuffix.eq_of_length (Nat.le_antisymm hsuffix.length_le ?_)
      show s.toList.length ≤ (trimStart s.toList).length
      exact htrimmed ▸ hlength
    rw [trimChars, hstart] at hchars
    exact ⟨hstart, List.reverse_eq_iff.mp hchars⟩
  · rintro ⟨hstart, hend⟩
    rw [trim, trimChars, hstart, hend, List.reverse_reverse, String.ofList_toList]

/-! ## The text of an integer -/

theorem digits?_toDigits (n : Nat) : digits? (Nat.toDigits 10 n) = some n := by
  rw [digits?, if_pos ⟨Nat.toDigits_ne_nil, Decimal.all_isDigit_toDigits n⟩,
    Decimal.digitsValue_toDigits]

/-- An integer is written by its digits, with a sign below zero. -/
theorem toList_toString (n : Int) : (toString n).toList =
    if 0 ≤ n then Nat.toDigits 10 n.toNat else '-' :: Nat.toDigits 10 (-n).toNat := by
  rw [Int.toString_eq_repr, Int.repr_eq_if]
  split
  · exact Nat.toList_repr
  · rw [String.toList_append, Nat.toList_repr]
    rfl

theorem trim_toString (n : Int) : trim (toString n) = toString n := by
  have hdigits : ∀ m, ∀ c ∈ Nat.toDigits 10 m, isBlank c = false := fun m c hc =>
    isBlank_of_isDigit (Nat.isDigit_of_mem_toDigits (by decide) (by decide) hc)
  have hplain : ∀ c ∈ (toString n).toList, isBlank c = false := by
    rw [toList_toString]
    split
    · exact hdigits _
    · exact List.forall_mem_cons.mpr ⟨by decide, hdigits _⟩
  rw [trim, trimChars_of_forall hplain, String.ofList_toList]

/-- No sign begins the digits of a number. -/
theorem toDigits_ne_sign {n : Nat} {c : Char} (hc : c.isDigit = false) (cs : List Char) :
    Nat.toDigits 10 n ≠ c :: cs := by
  intro heq
  have hmem : c ∈ Nat.toDigits 10 n := heq ▸ List.mem_cons_self
  have hdigit := Nat.isDigit_of_mem_toDigits (by decide) (by decide) hmem
  exact Bool.false_ne_true (hc.symm.trans hdigit)

/-- An integer reads back from its text. -/
theorem toInt?_toString (n : Int) : toInt? (toString n) = some n := by
  rw [toInt?, toList_toString]
  by_cases hsign : 0 ≤ n
  · rw [if_pos hsign]
    split
    · rename_i cs hcs
      exact absurd hcs (toDigits_ne_sign rfl cs)
    · rename_i cs hcs
      exact absurd hcs (toDigits_ne_sign rfl cs)
    · rw [digits?_toDigits, Option.map_some]
      exact congrArg some (Int.toNat_of_nonneg hsign)
  · have hnegative : max (-n) 0 = -n := Int.max_eq_left (by omega)
    rw [if_neg hsign]
    simp [digits?_toDigits, hnegative]

end Text

/-! ## Sixty-four bits -/

theorem toInt_of_int64? {n : Int} {i : Int64} (h : int64? n = some i) : i.toInt = n := by
  rw [int64?] at h
  split at h
  · rename_i hrange
    rw [← Option.some.inj h]
    exact Int64.toInt_ofInt_of_le hrange.1 (Int.lt_add_one_of_le hrange.2)
  · cases h

end ProfileMigration
