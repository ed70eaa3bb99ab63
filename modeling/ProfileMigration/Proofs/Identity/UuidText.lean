/-
  ProfileMigration.Proofs.Identity.UuidText

  The texts of identifiers:

    Uuid.ofText?_text         -- an identifier reads back from its text
    Uuid.text_injective       -- no two identifiers share a text
    Uuid.ofText?_append_mask  -- the variable of a mask is never taken for an identifier
    Uuid.colon_not_mem_text   -- what tells an identifier from the words of a failed call
-/
import Mathlib.Algebra.Group.Nat.Defs
import ProfileMigration.Identity.Uuid
import ProfileMigration.Proofs.Sequence.Traverse

namespace ProfileMigration

namespace Uuid

/-! ## Reading back what was written -/

/-- Reading digits of base sixteen from the most significant one gives the number back. -/
theorem foldl_digits (k n : Nat) :
    ((List.range k).map fun i => n / 16 ^ (k - 1 - i) % 16).foldl (fun m v => 16 * m + v) 0 =
      n % 16 ^ k := by
  induction k generalizing n with
  | zero => simp [Nat.mod_one]
  | succ k ih =>
    -- All digits but the last are those of the quotient
    have hlow : ((List.range k).map fun i => n / 16 ^ (k + 1 - 1 - i) % 16) =
        (List.range k).map fun i => n / 16 / 16 ^ (k - 1 - i) % 16 := by
      apply List.map_congr_left
      intro i hi
      have hik : i < k := List.mem_range.mp hi
      have hexp : k + 1 - 1 - i = (k - 1 - i) + 1 := by omega
      rw [hexp, Nat.pow_succ', Nat.div_div_eq_div_mul]
    rw [List.range_succ, List.map_append, List.foldl_append, hlow, ih]
    simp only [List.map_cons, List.map_nil, List.foldl_cons, List.foldl_nil]
    have hlast : k + 1 - 1 - k = 0 := by omega
    rw [hlast, Nat.pow_zero, Nat.div_one, Nat.pow_succ', Nat.mod_mul]
    omega

/-- Written digits read as their values. -/
theorem mapM_hexValue? (ns : List Nat) (h : ∀ n ∈ ns, n < 16) :
    (ns.map Text.hexDigit).mapM Text.hexValue? = some ns :=
  mapM_map_eq_pure_self fun n hn => Text.hexValue?_hexDigit (h n hn)

theorem length_digits (id : Uuid) : id.digits.length = 32 := by simp [digits]

/-- Four bits are one digit. -/
theorem shiftRight_four_mul (n k : Nat) : n >>> (4 * k) = n / 16 ^ k := by
  rw [Nat.shiftRight_eq_div_pow, Nat.pow_mul]

/-- The digits of an identifier read as the identifier. -/
theorem ofDigits?_digits (id : Uuid) : ofDigits? id.digits = some id := by
  have hmap : id.digits = ((List.range 32).map fun i =>
      id.bits.toNat / 16 ^ (31 - i) % 16).map Text.hexDigit := by
    simp [digits, shiftRight_four_mul]
  have hlt : ∀ n ∈ (List.range 32).map fun i => id.bits.toNat / 16 ^ (31 - i) % 16, n < 16 := by
    intro n hn
    obtain ⟨i, _, rfl⟩ := List.mem_map.mp hn
    exact Nat.mod_lt _ (by decide)
  have hval : (((List.range 32).map fun i => id.bits.toNat / 16 ^ (31 - i) % 16).foldl
      (fun m v => 16 * m + v) 0) = id.bits.toNat := by
    have h := foldl_digits 32 id.bits.toNat
    rw [h]
    exact Nat.mod_eq_of_lt id.bits.isLt
  rw [ofDigits?, if_pos (length_digits id), hmap, mapM_hexValue? _ hlt, Option.map_some, hval]
  simp

/-- Five groups of digits between hyphens read as the digits. -/
theorem ofHyphenated?_groups {a b c d e : List Char} (ha : a.length = 8) (hb : b.length = 4)
    (hc : c.length = 4) (hd : d.length = 4) (he : e.length = 12) :
    ofHyphenated? (a ++ '-' :: (b ++ '-' :: (c ++ '-' :: (d ++ '-' :: e)))) =
      ofDigits? (a ++ (b ++ (c ++ (d ++ e)))) := by
  have hdrop : ∀ {g : List Char} {n k : Nat}, g.length = n → n ≤ k → g.drop k = [] :=
    fun hg hk => List.drop_of_length_le (by omega)
  simp [ofHyphenated?, List.drop_append, ha, hb, hc, hd, he, hdrop ha, hdrop hb, hdrop hc,
    hdrop hd]

/-- An identifier reads back from its text. -/
theorem ofText?_text (id : Uuid) : ofText? id.text = some id := by
  have hlen := length_digits id
  have hsplit : id.digits = id.digits.take 8 ++ ((id.digits.drop 8).take 4 ++
      ((id.digits.drop 12).take 4 ++ ((id.digits.drop 16).take 4 ++ id.digits.drop 20))) := by
    have hnext : ∀ n, id.digits.drop n = (id.digits.drop n).take 4 ++ id.digits.drop (n + 4) := by
      intro n
      rw [← List.drop_drop, List.take_append_drop]
    rw [← hnext 16, ← hnext 12, ← hnext 8, List.take_append_drop]
  have hgroups : ofHyphenated? id.text.toList = ofDigits? id.digits := by
    rw [text, String.toList_ofList]
    simp only [List.cons_append, List.append_assoc]
    rw [ofHyphenated?_groups (by simp [hlen]) (by simp [hlen]) (by simp [hlen]) (by simp [hlen])
      (by simp [hlen]), ← hsplit]
  -- With its hyphens the text is too long for digits alone
  have hlong : ofDigits? id.text.toList = none := by
    have htext : id.text.toList.length = 36 := by
      rw [text, String.toList_ofList]
      simp [hlen]
    rw [ofDigits?, if_neg (by omega)]
  rw [ofText?, ofChars?, hlong, hgroups, ofDigits?_digits]

/-- No two identifiers share a text. -/
theorem text_injective {a b : Uuid} (h : a.text = b.text) : a = b := by
  have ha := ofText?_text a
  rw [h, ofText?_text b] at ha
  exact (Option.some.inj ha).symm

/-! ## Texts that are no identifiers -/

/-- Only hexadecimal digits read as digits. -/
theorem isSome_hexValue?_of_ofDigits? {cs : List Char} {id : Uuid} (h : ofDigits? cs = some id) :
    ∀ c ∈ cs, (Text.hexValue? c).isSome := by
  rw [ofDigits?] at h
  split at h
  · obtain ⟨vs, hvs, _⟩ := Option.map_eq_some_iff.mp h
    exact isSome_of_mapM_eq_some hvs
  · cases h

/-- A hyphenated identifier ends in a digit. -/
theorem getLast?_of_ofHyphenated? {cs : List Char} {id : Uuid} (h : ofHyphenated? cs = some id) :
    ∃ c, cs.getLast? = some c ∧ (Text.hexValue? c).isSome := by
  rw [ofHyphenated?] at h
  split at h
  · rename_i hshape
    -- The last group is what the last character is in
    have hlast : cs.getLast? = (cs.drop 24).getLast? := by
      rw [List.getLast?_drop, if_neg (by omega)]
    obtain ⟨c, hc⟩ : ∃ c, (cs.drop 24).getLast? = some c := by
      cases hdrop : (cs.drop 24).getLast? with
      | some c => exact ⟨c, rfl⟩
      | none =>
        have hlen := congrArg List.length (List.getLast?_eq_none_iff.mp hdrop)
        simp only [List.length_drop, List.length_nil] at hlen
        omega
    refine ⟨c, by rw [hlast, hc], isSome_hexValue?_of_ofDigits? h c ?_⟩
    exact List.mem_append_right _ (List.mem_of_getLast? hc)
  · cases h

/-- Every written form of an identifier ends in a digit or a closing brace. -/
theorem getLast?_of_ofChars? {cs : List Char} {id : Uuid} (h : ofChars? cs = some id) :
    ∃ c, cs.getLast? = some c ∧ ((Text.hexValue? c).isSome ∨ c = '\x7d') := by
  rw [ofChars?] at h
  split at h
  · rename_i hdigits
    have hlen : cs.length = 32 := by
      rw [ofDigits?] at hdigits
      split at hdigits
      · assumption
      · cases hdigits
    obtain ⟨c, hc⟩ : ∃ c, cs.getLast? = some c := by
      cases hlast : cs.getLast? with
      | some c => exact ⟨c, rfl⟩
      | none => rw [List.getLast?_eq_none_iff.mp hlast] at hlen; cases hlen
    exact ⟨c, hc, .inl (isSome_hexValue?_of_ofDigits? hdigits c (List.mem_of_getLast? hc))⟩
  · split at h
    · rename_i hhyphens
      obtain ⟨c, hc, hdigit⟩ := getLast?_of_ofHyphenated? hhyphens
      exact ⟨c, hc, .inl hdigit⟩
    · split at h
      · rename_i hbraces
        exact ⟨_, hbraces.2, .inr rfl⟩
      · split at h
        · obtain ⟨c, hc, hdigit⟩ := getLast?_of_ofHyphenated? h
          refine ⟨c, ?_, .inl hdigit⟩
          rw [List.getLast?_drop] at hc
          split at hc
          · cases hc
          · exact hc
        · cases h

/-- The name of a mask's variable never reads as an identifier. -/
theorem ofText?_append_mask (name : String) : ofText? (name ++ "_mask") = none := by
  cases h : ofText? (name ++ "_mask") with
  | none => rfl
  | some id =>
    obtain ⟨c, hc, hend⟩ := getLast?_of_ofChars? h
    have hk : (name ++ "_mask").toList.getLast? = some 'k' := by
      rw [String.toList_append, List.getLast?_append]
      rfl
    rw [hk] at hc
    cases hc
    exact absurd hend (by decide)

/-- The text of an identifier has no colon. -/
theorem colon_not_mem_text (id : Uuid) : ':' ∉ id.text.toList := by
  have hdigit : ∀ n, n < 16 → Text.hexDigit n ≠ ':' := by decide
  have hdigits : ':' ∉ id.digits := by
    intro h
    obtain ⟨i, _, hi⟩ := List.mem_map.mp h
    exact hdigit _ (Nat.mod_lt _ (by decide)) hi
  have htake : ∀ n k, ':' ∉ (id.digits.drop n).take k := fun n k h =>
    hdigits (List.mem_of_mem_drop (List.mem_of_mem_take h))
  have hdrop : ∀ n, ':' ∉ id.digits.drop n := fun n h => hdigits (List.mem_of_mem_drop h)
  have hfirst : ':' ∉ id.digits.take 8 := fun h => hdigits (List.mem_of_mem_take h)
  rw [text, String.toList_ofList]
  simp [hfirst, htake, hdrop]

end Uuid

end ProfileMigration
