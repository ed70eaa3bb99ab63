/-
  ProfileMigration.Proofs.Net.Masks

  Addresses that are written with a mask behind them:

    Text.words_pair             -- two words with blanks between them and around
    Net.IsMask                  -- a word of so many ones and nothing but zeros behind them
    Net.isMask_iff              -- the mask of a length is that word
    Net.getMsbD_leadingOnes / getLsbD_trailingZeros
                                -- the bits that the two counts end at
    Net.maskLength?_eq_some_iff -- the two counts make up the word exactly for masks
    Net.maskText?_eq_some_iff   -- the text of a mask is read as that length, and no other text is
    Net.WithMask                -- a text of an address and what may be a mask, with blanks
    Net.parseAddress?_withMask  -- it denotes the network of the address if the mask is one
    Net.parseAddress?_text      -- as does the text of the address and the length
-/
import ProfileMigration.Proofs.Net.AddressText
import ProfileMigration.Proofs.Text.Integer

namespace ProfileMigration

/-! ## Words -/

namespace Text

variable {blanks front cs : List Char}

theorem trimStart_append_blanks (h : ∀ c ∈ blanks, isBlank c = true) (cs : List Char) :
    trimStart (blanks ++ cs) = trimStart cs :=
  List.dropWhile_append_of_pos h

theorem trimStart_append_of_forall (h : ∀ c ∈ front, isBlank c = false) (hne : front ≠ [])
    (cs : List Char) : trimStart (front ++ cs) = front ++ cs := by
  obtain ⟨c, rest, rfl⟩ := List.exists_cons_of_ne_nil hne
  exact trimStart_cons (h c List.mem_cons_self) (rest ++ cs)

/-- Blanks at both ends are trimmed, and none within. -/
theorem trimChars_between {lead back trail : List Char} (hlead : ∀ c ∈ lead, isBlank c = true)
    (htrail : ∀ c ∈ trail, isBlank c = true) (hfront : ∀ c ∈ front, isBlank c = false)
    (hback : ∀ c ∈ back, isBlank c = false) (hne : front ≠ []) (hne' : back ≠ [])
    (cs : List Char) :
    trimChars (lead ++ (front ++ (cs ++ back)) ++ trail) = front ++ (cs ++ back) := by
  have htrail' : ∀ c ∈ trail.reverse, isBlank c = true :=
    fun c hc => htrail c (List.mem_reverse.mp hc)
  have hback' : ∀ c ∈ back.reverse, isBlank c = false :=
    fun c hc => hback c (List.mem_reverse.mp hc)
  have hends : (front ++ (cs ++ back)).reverse = back.reverse ++ (front ++ cs).reverse := by
    simp
  rw [trimChars, List.append_assoc, trimStart_append_blanks hlead, List.append_assoc,
    trimStart_append_of_forall hfront hne, ← List.append_assoc, List.reverse_append,
    trimStart_append_blanks htrail', hends,
    trimStart_append_of_forall hback' (mt List.reverse_eq_nil_iff.mp hne'), ← hends,
    List.reverse_reverse]

/-- Blanks before a word leave nothing but empty pieces. -/
theorem words_blanks_append (h : ∀ c ∈ blanks, isBlank c = true)
    (hcs : ∀ c ∈ cs, isBlank c = false) (hne : cs ≠ []) :
    (splitBy isBlank (blanks ++ cs)).filter (· ≠ []) = [cs] := by
  induction blanks with
  | nil =>
    rw [List.nil_append, splitBy_eq_singleton hcs]
    simp [hne]
  | cons c rest ih =>
    obtain ⟨hc, hrest⟩ := List.forall_mem_cons.mp h
    rw [List.cons_append, splitBy, if_pos hc, List.filter_cons_of_neg (by simp)]
    exact ih hrest

/-- Two words with blanks between them. -/
theorem words_pair {first second gap : List Char} (hfirst : ∀ c ∈ first, isBlank c = false)
    (hsecond : ∀ c ∈ second, isBlank c = false) (hgap : ∀ c ∈ gap, isBlank c = true)
    (hne : first ≠ []) (hne' : second ≠ []) (hcut : gap ≠ []) :
    words (String.ofList (first ++ (gap ++ second))) = [first, second] := by
  obtain ⟨c, blanks, rfl⟩ := List.exists_cons_of_ne_nil hcut
  obtain ⟨hc, hblanks⟩ := List.forall_mem_cons.mp hgap
  rw [words, String.toList_ofList, List.cons_append, splitBy_append_cons hfirst hc,
    List.filter_cons_of_pos (by simp [hne]), words_blanks_append hblanks hsecond hne']

end Text

namespace Net

/-! ## Contiguous masks -/

/-- A word whose first bits are ones, so many of them, with nothing but zeros behind them. -/
def IsMask (m : BitVec 32) (n : Nat) : Prop := ∀ i < 32, m.getMsbD i = decide (i < n)

instance (m : BitVec 32) (n : Nat) : Decidable (IsMask m n) :=
  inferInstanceAs (Decidable (∀ i < 32, _))

variable {a m : BitVec 32} {s t : String}

theorem isMask_mask (n : Nat) : IsMask (mask 32 n) n := by
  intro i hi
  have hback : i - n < 32 := by omega
  rw [mask, BitVec.getMsbD_not, BitVec.getMsbD_ushiftRight, BitVec.getMsbD_allOnes]
  simp [hi, hback]

/-- A word of so many ones is the mask of that length. -/
theorem isMask_iff {n : Nat} : IsMask m n ↔ m = mask 32 n := by
  constructor
  · exact fun h => BitVec.eq_of_getMsbD_eq fun i hi => (h i hi).trans (isMask_mask n i hi).symm
  · rintro rfl
    exact isMask_mask n

/-! ### Ones in front and zeros behind -/

theorem leadingOnes_le (m : BitVec 32) : leadingOnes m ≤ 32 := by
  have h := BitVec.le_def.mp (BitVec.clz_le (x := ~~~m))
  simpa [leadingOnes] using h

theorem getMsbD_of_lt_leadingOnes {i : Nat} (h : i < leadingOnes m) : m.getMsbD i = true := by
  have hi : i < 32 := Nat.lt_of_lt_of_le h (leadingOnes_le m)
  rw [leadingOnes, BitVec.clz_eq_reverse_ctz] at h
  have hzero := BitVec.getLsbD_false_of_lt_ctz h
  rw [BitVec.getLsbD_reverse, BitVec.getMsbD_not] at hzero
  simpa [hi] using hzero

/-- Behind the leading ones there is a zero, unless there is nothing. -/
theorem getMsbD_leadingOnes (h : leadingOnes m < 32) : m.getMsbD (leadingOnes m) = false := by
  have hne : (~~~m).reverse ≠ 0#32 := by
    rw [← BitVec.ctz_lt_iff_ne_zero, ← BitVec.clz_eq_reverse_ctz, BitVec.lt_def]
    exact h
  have hone := BitVec.getLsbD_true_ctz_of_ne_zero hne
  rw [BitVec.getLsbD_reverse, ← BitVec.clz_eq_reverse_ctz, BitVec.getMsbD_not,
    Bool.and_eq_true] at hone
  simpa [leadingOnes] using hone.2

theorem getLsbD_of_lt_trailingZeros {i : Nat} (h : i < trailingZeros m) : m.getLsbD i = false :=
  BitVec.getLsbD_false_of_lt_ctz h

/-- In front of the zeros at the end there is a one, unless there is nothing. -/
theorem getLsbD_trailingZeros (h : trailingZeros m < 32) :
    m.getLsbD (trailingZeros m) = true := by
  have hne : m ≠ 0#32 := by
    rw [← BitVec.ctz_lt_iff_ne_zero, BitVec.lt_def]
    exact h
  exact BitVec.getLsbD_true_ctz_of_ne_zero hne

theorem trailingZeros_le (m : BitVec 32) : trailingZeros m ≤ 32 := by
  have h := BitVec.le_def.mp (BitVec.clz_le (x := m.reverse))
  simpa [trailingZeros, BitVec.ctz_eq_reverse_clz] using h

/-- Where ones in front and zeros behind make up the word, it is a mask. -/
theorem isMask_of_add_eq (h : leadingOnes m + trailingZeros m = 32) :
    IsMask m (leadingOnes m) := by
  intro i hi
  by_cases hfront : i < leadingOnes m
  · rw [getMsbD_of_lt_leadingOnes hfront, decide_eq_true hfront]
  · have hback : 31 - i < trailingZeros m := by omega
    have hzero := getLsbD_of_lt_trailingZeros hback
    rw [BitVec.getMsbD_eq_getLsbD, decide_eq_false hfront]
    simpa using fun _ => hzero

/-- A mask has as many ones in front as it says. -/
theorem IsMask.leadingOnes_eq {n : Nat} (h : IsMask m n) (hn : n ≤ 32) : leadingOnes m = n := by
  have hle := leadingOnes_le m
  rcases Nat.lt_trichotomy (leadingOnes m) n with hlt | heq | hlt
  · -- The zero behind the ones would be one of the ones
    have hzero := getMsbD_leadingOnes (m := m) (by omega)
    rw [h _ (by omega), decide_eq_false_iff_not] at hzero
    exact absurd hlt hzero
  · exact heq
  · have hone := getMsbD_of_lt_leadingOnes hlt
    rw [h n (by omega), decide_eq_true_iff] at hone
    exact absurd hone (Nat.lt_irrefl n)

/-- Everything behind them is zeros. -/
theorem IsMask.trailingZeros_eq {n : Nat} (h : IsMask m n) (hn : n ≤ 32) :
    trailingZeros m = 32 - n := by
  have hbit : ∀ i < 32, m.getLsbD i = decide (31 - i < n) := by
    intro i hi
    have hbit := h (31 - i) (by omega)
    rw [BitVec.getMsbD_eq_getLsbD, show 32 - 1 - (31 - i) = i by omega] at hbit
    rw [← hbit, decide_eq_true (show 31 - i < 32 by omega), Bool.true_and]
  have hle := trailingZeros_le m
  rcases Nat.lt_trichotomy (trailingZeros m) (32 - n) with hlt | heq | hlt
  · have hone := getLsbD_trailingZeros (m := m) (by omega)
    rw [hbit _ (by omega), decide_eq_true_iff] at hone
    omega
  · exact heq
  · -- The last one of the mask would be one of the zeros
    have hzero := getLsbD_of_lt_trailingZeros hlt
    rw [hbit _ (by omega), decide_eq_false_iff_not] at hzero
    omega

theorem maskLength?_eq_some_iff {n : Fin 33} : maskLength? m = some n ↔ IsMask m n := by
  rw [maskLength?]
  constructor
  · intro h
    obtain ⟨hsum, hn⟩ := Option.dite_none_right_eq_some.mp h
    rw [← Option.some.inj hn]
    exact isMask_of_add_eq hsum
  · intro h
    have hn : (n : Nat) ≤ 32 := Nat.le_of_lt_succ n.isLt
    have hones := h.leadingOnes_eq hn
    have hzeros := h.trailingZeros_eq hn
    rw [dif_pos (by omega)]
    exact congrArg some (Fin.ext hones)

/-- The number of ones that a text of a mask is written for. -/
def maskText? (t : String) : Option (Fin 33) := (ipv4OfText? .strict t.toList).bind maskLength?

theorem maskText?_eq_some_iff {n : Fin 33} :
    maskText? t = some n ↔ ∃ m, IsMask m n ∧ t = ipv4Text m := by
  rw [maskText?, Option.bind_eq_some_iff]
  constructor
  · rintro ⟨m, hm, hn⟩
    exact ⟨m, maskLength?_eq_some_iff.mp hn,
      String.toList_inj.mp (eq_ipv4Text_of_ipv4OfText? hm)⟩
  · rintro ⟨m, hm, rfl⟩
    exact ⟨m, ipv4OfText?_ipv4Text .strict m, maskLength?_eq_some_iff.mpr hm⟩

theorem maskText?_eq_none_iff :
    maskText? t = none ↔ ∀ (m : BitVec 32) (n : Fin 33), IsMask m n → t ≠ ipv4Text m := by
  rw [Option.eq_none_iff_forall_ne_some]
  constructor
  · exact fun h m n hm ht => h n (maskText?_eq_some_iff.mpr ⟨m, hm, ht⟩)
  · intro h n hn
    obtain ⟨m, hm, ht⟩ := maskText?_eq_some_iff.mp hn
    exact h m n hm ht

/-! ## Addresses with masks -/

/-- A text of digits and points. -/
def Dotted (t : String) : Prop := t.toList ≠ [] ∧ ∀ c ∈ t.toList, c.isDigit = true ∨ c = '.'

theorem dotted_ipv4Text (a : BitVec 32) : Dotted (ipv4Text a) := by
  constructor
  · intro hnil
    have hread := ipv4OfText?_ipv4Text .strict a
    rw [hnil] at hread
    cases hread
  · rw [toList_ipv4Text]
    exact fun c hc => isDigit_or_of_mem_dotted hc

theorem Dotted.isBlank (h : Dotted t) {c : Char} (hc : c ∈ t.toList) :
    Text.isBlank c = false := by
  rcases h.2 c hc with hdigit | rfl
  · exact Text.isBlank_of_isDigit hdigit
  · decide

theorem Dotted.slash_not_mem (h : Dotted t) : '/' ∉ t.toList := by
  intro hmem
  rcases h.2 _ hmem with hslash | hslash <;> exact absurd hslash (by decide)

/-- The text of an address and, behind blanks, one of digits and points, with any blanks around
    both. -/
def WithMask (a : BitVec 32) (t s : String) : Prop :=
  Dotted t ∧ ∃ lead gap trail : List Char,
    (∀ c ∈ lead ++ gap ++ trail, Text.isBlank c = true) ∧ gap ≠ [] ∧
    s.toList = lead ++ ((ipv4Text a).toList ++ (gap ++ t.toList)) ++ trail

/-- No blank may stand in the text of an address. -/
theorem isBlank_of_plain {c : Char} (h : Plain c) : Text.isBlank c = false := by
  rcases h with hhex | rfl | rfl
  · have hrange : 48 ≤ c.toNat ∧ c.toNat ≤ 102 := by
      rw [Text.hexValue?] at hhex
      split at hhex
      · rename_i hdigit
        exact ⟨hdigit.1, Nat.le_trans hdigit.2 (by decide)⟩
      · split at hhex
        · rename_i hlower
          exact ⟨Nat.le_trans (by decide) hlower.1, hlower.2⟩
        · split at hhex
          · rename_i hupper
            exact ⟨Nat.le_trans (by decide) hupper.1, Nat.le_trans hupper.2 (by decide)⟩
          · cases hhex
    refine Bool.eq_false_iff.mpr fun hblank => ?_
    simp only [Text.isBlank, Bool.or_eq_true, Bool.and_eq_true, decide_eq_true_iff,
      beq_iff_eq] at hblank
    omega
  · decide
  · decide

theorem ofText?_of_blank {c : Char} (hc : c ∈ s.toList) (hblank : Text.isBlank c = true) :
    IpAddress.ofText? s = none := by
  rw [Option.eq_none_iff_forall_ne_some]
  intro x hx
  have hplain := isBlank_of_plain (IpAddress.plain_of_ofTextWith? hx c hc)
  exact Bool.false_ne_true (hplain.symm.trans hblank)

/-- Without a slash, a text is no network. -/
theorem networkOfText?_eq_none (h : '/' ∉ s.toList) : Network.ofText? s = none := by
  have huncut : ∀ c ∈ s.toList, decide (c = '/') = false :=
    fun c hc => decide_eq_false fun hslash => h (hslash ▸ hc)
  rw [Network.ofText?, Text.splitBy_eq_singleton huncut]

/-- What such a text denotes hangs on whether there is a mask behind the address. -/
theorem parseAddress?_withMask (h : WithMask a t s) :
    parseAddress? s = (maskText? t).map fun n => .network (.v4 a n) := by
  obtain ⟨hdotted, lead, gap, trail, hblank, hgap, hs⟩ := h
  obtain ⟨hfront, htrail⟩ := List.forall_mem_append.mp hblank
  obtain ⟨hlead, hbetween⟩ := List.forall_mem_append.mp hfront
  have ha : ∀ c ∈ (ipv4Text a).toList, Text.isBlank c = false :=
    fun c hc => (dotted_ipv4Text a).isBlank hc
  have ht : ∀ c ∈ t.toList, Text.isBlank c = false := fun c hc => hdotted.isBlank hc
  have hbody : Text.trim s = String.ofList ((ipv4Text a).toList ++ (gap ++ t.toList)) := by
    rw [Text.trim, hs, Text.trimChars_between hlead htrail ha ht (dotted_ipv4Text a).1 hdotted.1]
  have hslash : '/' ∉ (String.ofList ((ipv4Text a).toList ++ (gap ++ t.toList))).toList := by
    rw [String.toList_ofList, List.mem_append, List.mem_append, not_or, not_or]
    refine ⟨(dotted_ipv4Text a).slash_not_mem, fun hmem => ?_, hdotted.slash_not_mem⟩
    exact absurd (hbetween _ hmem) (by decide)
  obtain ⟨c, rest, rfl⟩ := List.exists_cons_of_ne_nil hgap
  have haddress : IpAddress.ofText?
      (String.ofList ((ipv4Text a).toList ++ (c :: rest ++ t.toList))) = none := by
    refine ofText?_of_blank ?_ (hbetween c List.mem_cons_self)
    simp
  rw [parseAddress?, hbody, haddress, networkOfText?_eq_none hslash, addressWithMask?,
    Text.words_pair ha ht hbetween (dotted_ipv4Text a).1 hdotted.1 hgap]
  dsimp only
  rw [ipv4OfText?_ipv4Text, Option.bind_eq_bind, Option.bind_some, maskText?]
  cases ipv4OfText? .strict t.toList with
  | none => rfl
  | some m =>
    rw [Option.bind_eq_bind, Option.bind_some, Option.bind_some]
    cases maskLength? m with
    | none => rfl
    | some n => rfl

/-- The text of an address and a length denotes that network. -/
theorem parseAddress?_text (n : Network) : parseAddress? n.text = some (.network n) := by
  have hplain : ∀ c ∈ n.text.toList, Text.isBlank c = false := by
    rw [Network.toList_text]
    refine List.forall_mem_append.mpr ⟨fun c hc => ?_, List.forall_mem_cons.mpr ⟨by decide, ?_⟩⟩
    · exact isBlank_of_plain
        (IpAddress.plain_of_ofTextWith? (IpAddress.ofTextWith?_text .strict _) c hc)
    · exact fun c hc =>
        Text.isBlank_of_isDigit (Nat.isDigit_of_mem_toDigits (by decide) (by decide) hc)
  have htrim : Text.trim n.text = n.text := by
    rw [Text.trim, Text.trimChars_of_forall hplain, String.ofList_toList]
  rw [parseAddress?, htrim, IpAddress.ofText?_text_network, Network.ofText?_text]

end Net

end ProfileMigration
