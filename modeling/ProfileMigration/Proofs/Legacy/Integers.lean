/-
  ProfileMigration.Proofs.Legacy.Integers

  Integers in definitions:

    Legacy.integer?             -- the integer that a value spells, as a number or as text
    Legacy.toInt64?_leaf        -- a value that is declared as an integer is read as that
    Legacy.toInt64?_leaf_large  -- unless it is a number past the signed range
    Legacy.toInt64?_leaf_text   -- a value that is declared as text always is
    Legacy.Respells             -- two spellings of one integer
    Legacy.silent_respells      -- exchanging them changes nothing
-/
import ProfileMigration.Proofs.Legacy.Sources
import ProfileMigration.Proofs.Numeric.Rounding
import ProfileMigration.Proofs.Text.Integer

namespace ProfileMigration

/-! ## Sixty-four bits -/

theorem Number.toInt64?_int (n : ExactInt) : (Number.int n).toInt64? = int64? n.val := by
  rw [toInt64?, int64?]
  by_cases h : n.val ≤ Int64.maxValue.toInt
  · rw [if_pos h, if_pos ⟨n.lower, h⟩]
  · rw [if_neg h, if_neg (mt And.right h)]

theorem int64?_of_large {n : Int} (h : Int64.maxValue.toInt < n) : int64? n = none :=
  if_neg fun hrange => absurd hrange.2 (Int.not_le.mpr h)

namespace Legacy

variable {hints : Hints} {key s : String} {j : Json} {n : Int}

/-- The integer that a value spells: an exact number, or the decimal text of an integer with
    blanks around it. -/
def integer? : Json → Option Int
  | .num (.int n) => some n.val
  | .str s => Text.toInt? (Text.trim s)
  | _ => none

/-- A text that spells an integer is read as that if it fits in sixty-four bits. -/
theorem toInt64?_trim (hs : integer? (.str s) = some n) :
    Text.toInt64? (Text.trim s) = int64? n := by
  have htext : Text.toInt? (Text.trim s) = some n := hs
  rw [Text.toInt64?, htext, Option.bind_some]

/-! ## Declared as integers -/

/-- A text by its looks is a truth value, an address, or itself. -/
theorem inferText_cases (s : String) : (∃ b, inferText s = .bool b) ∨
    (∃ form, inferText s = .ofAddressForm form) ∨ inferText s = .str s := by
  rw [inferText]
  by_cases htrue : Text.sameIgnoringCase s "true"
  · rw [truthOf, if_pos htrue]
    exact .inl ⟨true, rfl⟩
  · by_cases hfalse : Text.sameIgnoringCase s "false"
    · rw [truthOf, if_neg htrue, if_pos hfalse]
      exact .inl ⟨false, rfl⟩
    · rw [truthOf, if_neg htrue, if_neg hfalse]
      cases Net.parseAddress? s with
      | some form => exact .inr (.inl ⟨form, rfl⟩)
      | none => exact .inr (.inr rfl)

/-- It is an integer only if it spells one. -/
theorem toInt64?_inferText (h : Text.toInt64? (Text.trim s) = none) :
    (inferText s).toInt64? = none := by
  rcases inferText_cases s with ⟨b, hb⟩ | ⟨form, hform⟩ | hs
  · rw [hb]
    rfl
  · rw [hform]
    cases form with
    | address | network => rfl
  · rw [hs, Literal.toInt64?, h]

theorem leaf_integer (h : hints.kind? key = some .integer) (n : ExactInt) :
    leaf hints key (.num (.int n)) = .int ((int64? n.val).getD Int64.maxValue) := by
  rw [leaf, h, Option.bind_some]
  have hcoerce : coerce .integer (.num (.int n)) =
      some (.int ((int64? n.val).getD Int64.maxValue)) := by
    rw [coerce, coerceScalar, integerOf, Number.toInt64?_int]
    · cases hfits : int64? n.val with
      | some i => rfl
      | none =>
        -- Only the upper end of the exact range is past the signed one
        have hlarge : Int64.maxValue.toInt < n.val := by
          rw [int64?] at hfits
          by_contra hle
          rw [if_pos ⟨n.lower, Int.not_lt.mp hle⟩] at hfits
          cases hfits
        obtain ⟨hwhole, hmax⟩ := Binary64.toInt64_ofInt_of_large hlarge n.upper
        dsimp only
        rw [Number.toBinary64, if_pos hwhole, hmax]
        rfl
    · intro _ h
      cases h
  rw [hcoerce]

theorem leaf_integer_str (h : hints.kind? key = some .integer) (s : String) :
    leaf hints key (.str s) =
      ((Text.toInt64? (Text.trim s)).map Literal.int).getD (inferText s) := by
  have hcoerce : coerce .integer (.str s) = (Text.toInt64? (Text.trim s)).map Literal.int := by
    rw [coerce, coerceScalar, scalarText?, Option.bind_some]
    all_goals
      intro _ h
      cases h
  rw [leaf, h, Option.bind_some, hcoerce]
  cases Text.toInt64? (Text.trim s) with
  | some i => rfl
  | none => rfl

/-- What fits in sixty-four bits becomes an integer, however it is spelled. -/
theorem leaf_of_int64? (h : hints.kind? key = some .integer) (hj : integer? j = some n) {i : Int64}
    (hi : int64? n = some i) : leaf hints key j = .int i := by
  cases j with
  | num number =>
    cases number with
    | int exact =>
      obtain rfl := Option.some.inj hj
      rw [leaf_integer h, hi]
      rfl
    | float => cases hj
  | str s =>
    rw [leaf_integer_str h, toInt64?_trim hj, hi]
    rfl
  | null | bool | arr | obj => cases hj

/-- A value that is declared as an integer is read as the integer that it spells, or not at all if
    that does not fit and is a text. -/
theorem toInt64?_leaf (h : hints.kind? key = some .integer) (hj : integer? j = some n)
    (hn : n ≤ Int64.maxValue.toInt ∨ j.text?.isSome) :
    (leaf hints key j).toInt64? = int64? n := by
  cases hi : int64? n with
  | some i =>
    rw [leaf_of_int64? h hj hi]
    rfl
  | none =>
    cases j with
    | num number =>
      -- A number that is not past the range fits
      cases number with
      | int exact =>
        obtain rfl := Option.some.inj hj
        have hle := hn.resolve_right Bool.false_ne_true
        rw [int64?, if_pos ⟨exact.lower, hle⟩] at hi
        cases hi
      | float => cases hj
    | str s =>
      have hnone := (toInt64?_trim hj).trans hi
      rw [leaf_integer_str h, hnone, Option.map_none, Option.getD_none]
      exact toInt64?_inferText hnone
    | null | bool | arr | obj => cases hj

/-- A number past the signed range becomes the end of it. -/
theorem toInt64?_leaf_large (h : hints.kind? key = some .integer) (hj : integer? j = some n)
    (hn : Int64.maxValue.toInt < n) (htext : j.text? = none) :
    (leaf hints key j).toInt64? = some Int64.maxValue := by
  cases j with
  | num number =>
    cases number with
    | int exact =>
      obtain rfl := Option.some.inj hj
      rw [leaf_integer h, int64?_of_large hn]
      rfl
    | float => cases hj
  | str s => cases htext
  | null | bool | arr | obj => cases hj

/-! ## Declared as text -/

theorem leaf_text_number (h : hints.kind? key = some .text) (n : Number) :
    leaf hints key (.num n) = .str n.text := by
  rw [leaf, h]
  rfl

theorem leaf_text_str (h : hints.kind? key = some .text) (s : String) :
    leaf hints key (.str s) = .str (Text.trim s) := by
  rw [leaf, h]
  rfl

/-- A value that is declared as text is read as the integer that it spells, if that fits. -/
theorem toInt64?_leaf_text (h : hints.kind? key = some .text) (hj : integer? j = some n) :
    (leaf hints key j).toInt64? = int64? n := by
  cases j with
  | num number =>
    cases number with
    | int exact =>
      obtain rfl := Option.some.inj hj
      have hread : Text.toInt? (Text.trim (Number.int exact).text) = some exact.val := by
        rw [Number.text, Text.trim_toString, Text.toInt?_toString]
      rw [leaf_text_number h, Literal.toInt64?, Text.toInt64?, hread, Option.bind_some]
    | float => cases hj
  | str s =>
    rw [leaf_text_str h, Literal.toInt64?, Text.trim_trim, toInt64?_trim hj]
  | null | bool | arr | obj => cases hj

/-- The empty text spells no integer, so that no value that does is read as it. -/
theorem leaf_ne_empty (h : hints.kind? key = some .integer ∨ hints.kind? key = some .text)
    (hj : integer? j = some n) : leaf hints key j ≠ .str "" := by
  have hempty : Text.toInt? (Text.trim "") = none := by decide
  intro hleaf
  cases j with
  | num number =>
    cases number with
    | int exact =>
      rcases h with h | h
      · rw [leaf_integer h] at hleaf
        cases hleaf
      · rw [leaf_text_number h, Number.text] at hleaf
        have hread := Text.toInt?_toString exact.val
        rw [Literal.str.inj hleaf] at hread
        cases hread
    | float => cases hj
  | str s =>
    rcases h with h | h
    · rw [leaf_integer_str h] at hleaf
      cases hfits : Text.toInt64? (Text.trim s) with
      | some i =>
        rw [hfits] at hleaf
        cases hleaf
      | none =>
        rw [hfits, Option.map_none, Option.getD_none] at hleaf
        rcases inferText_cases s with ⟨b, hb⟩ | ⟨form, hform⟩ | hs
        · cases hb.symm.trans hleaf
        · rw [hform] at hleaf
          cases form with
          | address | network => cases hleaf
        · rw [Literal.str.inj (hs.symm.trans hleaf)] at hj
          cases hempty.symm.trans hj
    · rw [leaf_text_str h] at hleaf
      have hs : Text.toInt? (Text.trim s) = some n := hj
      rw [Literal.str.inj hleaf] at hs
      cases hs
  | null | bool | arr | obj => cases hj

/-! ## Exchanging spellings -/

theorem normalizeField_integer (hj : integer? j = some n) :
    normalizeField hints key j = some (.value (.fixed (leaf hints key j))) := by
  cases j with
  | num | str => rfl
  | null | bool | arr | obj => cases hj

/-- Two spellings of an integer: any two where an integer is declared and it fits in sixty-four
    bits, and two of one text where text is. -/
def Respells (hints : Hints) (key : String) (j j' : Json) : Prop :=
  ∃ n, integer? j = some n ∧ integer? j' = some n ∧
    (hints.kind? key = some .integer ∧ (∃ i, int64? n = some i) ∨
      hints.kind? key = some .text ∧ scalarText? j' = scalarText? j)

/-- Spellings of one integer say the same, where no type of wrappers is declared. -/
theorem silent_respells (h : hints.kind? "vipType" = none) : Silent hints (Respells hints) where
  same := by
    rintro key j j' ⟨n, hj, hj', ⟨hkind, i, hi⟩ | ⟨hkind, htext⟩⟩
    · rw [normalizeField_integer hj, normalizeField_integer hj', leaf_of_int64? hkind hj hi,
        leaf_of_int64? hkind hj' hi]
    · have hleaf : ∀ j, integer? j = some n →
          leaf hints key j = ((scalarText? j).map Literal.str).getD (undeclared j) := by
        intro j hj
        rw [leaf, hkind]
        cases j with
        | num | str => rfl
        | null | bool | arr | obj => cases hj
      cases j with
      | num | str =>
        rw [normalizeField_integer hj, normalizeField_integer hj', hleaf _ hj, hleaf _ hj', htext]
        rfl
      | null | bool | arr | obj => cases hj
  plain := by
    rintro _ _ ⟨n, -, -, ⟨hkind, -⟩ | ⟨hkind, -⟩⟩
    · cases h.symm.trans hkind
    · cases h.symm.trans hkind

end Legacy

end ProfileMigration
