/-
  ProfileMigration.Proofs.Json.Text

  Values read back from their indented text:

    Json.tokensOf           -- the tokens that a value is written with
    Json.Scan.Ends          -- what may follow a word
    Json.Scan.Scans         -- text that a scan takes for certain tokens
    Json.Scan.scans_pretty  -- indented text has the tokens of its value
    Json.Reading.run_tokensOf -- those tokens read as the value
    Json.isLegible          -- a value whose doubles read back
    Document.within_eq      -- what does not nest too deep stays as it is
    Document.ofText?_pretty -- a legible value reads back from its text

  Scanning is followed character by character, and reading token by token with any containers
  still open, so that both go by recursion on the value.
-/
import ProfileMigration.Json.Parser
import ProfileMigration.Json.Printer
import ProfileMigration.Proofs.Json.Numeral
import ProfileMigration.Proofs.Sequence.Traverse

namespace ProfileMigration

namespace Json

/-! ## Tokens of values -/

mutual

/-- The tokens that a value is written with. -/
def tokensOf : Json → List Token
  | .null => [.null]
  | .bool b => [.bool b]
  | .num n => [.num (some n)]
  | .str s => [.str (some s)]
  | .arr [] => [.openArray, .closeArray]
  | .arr (j :: rest) => .openArray :: (tokensOf j ++ elementTokens rest)
  | .obj [] => [.openObject, .closeObject]
  | .obj ((k, j) :: rest) =>
    .openObject :: .str (some k) :: .colon :: (tokensOf j ++ memberTokens rest)

/-- The tokens of the elements after the first, and the end of the array. -/
def elementTokens : List Json → List Token
  | [] => [.closeArray]
  | j :: rest => .comma :: (tokensOf j ++ elementTokens rest)

/-- The tokens of the members after the first, and the end of the object. -/
def memberTokens : List (String × Json) → List Token
  | [] => [.closeObject]
  | (k, j) :: rest => .comma :: .str (some k) :: .colon :: (tokensOf j ++ memberTokens rest)

end

mutual

/-- Every double in a value reads back from its digits. -/
def isLegible : Json → Bool
  | .num n => n.isLegible
  | .arr elements => areLegible elements
  | .obj members => membersLegible members
  | .null | .bool _ | .str _ => true

/-- Every double in the elements reads back. -/
def areLegible : List Json → Bool
  | [] => true
  | j :: rest => isLegible j && areLegible rest

/-- Every double in the members reads back. -/
def membersLegible : List (String × Json) → Bool
  | [] => true
  | (_, j) :: rest => isLegible j && membersLegible rest

end

/-! ## Scanning -/

namespace Scan

/-- A word ends where the text ends, or before a character that is not of a word. -/
def Ends (cs : List Char) : Prop := ∀ c ∈ cs.head?, endsWord c = true

theorem ends_cons {c : Char} (h : endsWord c = true) (cs : List Char) : Ends (c :: cs) := by
  intro d hd
  obtain rfl := Option.some.inj hd
  exact h

/-- Text that a scan takes for certain tokens, whatever comes before it, and whatever comes
    after it that ends a word. -/
def Scans (cs : List Char) (tokens : List Token) : Prop :=
  ∀ found rest, Ends rest → idle.run found (cs ++ rest) = idle.run (tokens.reverse ++ found) rest

/-- Text after text has the tokens of both, if a word before it ends. -/
theorem Scans.append {cs ds : List Char} {ts us : List Token} (h : Scans cs ts)
    (h' : Scans ds us) (hends : ∀ rest, Ends rest → Ends (ds ++ rest)) :
    Scans (cs ++ ds) (ts ++ us) := by
  intro found rest hrest
  rw [List.append_assoc, h found (ds ++ rest) (hends rest hrest), h' _ rest hrest,
    List.reverse_append, List.append_assoc]

theorem scans_nil : Scans [] [] := fun _ _ _ => rfl

/-- A separator in front. -/
theorem Scans.cons {c : Char} {token : Token} {cs : List Char} {ts : List Token}
    (h : Scans cs ts) (hc : start c = ([token], idle)) : Scans (c :: cs) (token :: ts) := by
  intro found rest hrest
  have hstep : idle.run found (c :: (cs ++ rest)) = idle.run (token :: found) (cs ++ rest) := by
    rw [run, step, hc]
    rfl
  rw [List.cons_append, hstep, h _ rest hrest, List.reverse_cons, List.append_assoc]
  rfl

/-- A blank in front. -/
theorem Scans.blank {c : Char} {cs : List Char} {ts : List Token} (h : Scans cs ts)
    (hc : start c = ([], idle)) : Scans (c :: cs) ts := by
  intro found rest hrest
  have hstep : idle.run found (c :: (cs ++ rest)) = idle.run found (cs ++ rest) := by
    rw [run, step, hc]
    rfl
  rw [List.cons_append, hstep, h _ rest hrest]

/-- A new line in front. -/
theorem Scans.newLine {cs : List Char} {ts : List Token} (h : Scans cs ts) (level : Nat) :
    Scans (newLine level ++ cs) ts := by
  rw [Json.newLine, List.cons_append]
  refine Scans.blank ?_ rfl
  induction 2 * level with
  | zero => exact h
  | succ n ih =>
    rw [List.replicate_succ, List.cons_append]
    exact ih.blank rfl

/-! ### Words -/

theorem run_word {read cs : List Char} (found : List Token)
    (h : ∀ c ∈ cs, endsWord c = false) (rest : List Char) :
    (word read).run found (cs ++ rest) = (word (cs.reverse ++ read)).run found rest := by
  induction cs generalizing read with
  | nil => rfl
  | cons c cs ih =>
    obtain ⟨hc, hcs⟩ := List.forall_mem_cons.mp h
    have hstep : (word read).run found (c :: (cs ++ rest)) =
        (word (c :: read)).run found (cs ++ rest) := by
      rw [run, step, if_neg (by rw [hc]; exact Bool.false_ne_true)]
      rfl
    rw [List.cons_append, hstep, ih hcs, List.reverse_cons, List.append_assoc]
    rfl

/-- The characters of a text that none of them ends, as a check of the text. -/
theorem endsWord_eq_false_of_any {cs : List Char} (h : cs.any endsWord = false) :
    ∀ c ∈ cs, endsWord c = false :=
  fun c hc => Bool.eq_false_iff.mpr (List.any_eq_false.mp h c hc)

/-- A word has the token that it stands for. -/
theorem scans_word {cs : List Char} {token : Token} (hword : word? cs = some token)
    (hne : cs ≠ []) (h : ∀ c ∈ cs, endsWord c = false) : Scans cs [token] := by
  intro found rest hrest
  cases cs with
  | nil => exact absurd rfl hne
  | cons c cs =>
    obtain ⟨hc, hcs⟩ := List.forall_mem_cons.mp h
    rw [endsWord, Bool.or_eq_false_iff, Bool.or_eq_false_iff] at hc
    obtain ⟨⟨hspace, hquote⟩, hpunctuation⟩ := hc
    have hstart : start c = ([], word [c]) := by
      rw [start, if_neg (by rw [hspace]; exact Bool.false_ne_true),
        if_neg (by simpa using hquote)]
      cases hp : punctuation? c with
      | none => rfl
      | some _ =>
        rw [hp] at hpunctuation
        cases hpunctuation
    have hopen : idle.run found (c :: (cs ++ rest)) = (word [c]).run found (cs ++ rest) := by
      rw [run, step, hstart]
      rfl
    have hread : (cs.reverse ++ [c]).reverse = c :: cs := by simp
    rw [List.cons_append, hopen, run_word found hcs]
    -- The word ends with the text, or with the next character, which then counts for itself
    cases rest with
    | nil =>
      rw [run, run, finish, finish, hread, hword]
      simp
    | cons d rest =>
      have hd : endsWord d = true := hrest d rfl
      rw [run, run, step, step, if_pos hd, hread, hword]
      simp

/-! ### Strings -/

/-- An escaped character is read as itself. -/
theorem run_escapedChar (c : Char) (read : List Char) (found : List Token) (rest : List Char) :
    (string (some read)).run found (escapedChar c ++ rest) =
      (string (some (c :: read))).run found rest := by
  unfold escapedChar
  -- Seven characters have an escape of one letter
  iterate 7
    split
    · subst c
      rfl
  rename_i hquote hbackslash _ _ _ _ _
  split
  · -- A control character is four digits, of which the first two are zeros
    rename_i hcontrol
    have hhigh := Text.hexValue?_hexDigit (n := c.toNat / 16) (by omega)
    have hlow := Text.hexValue?_hexDigit (n := c.toNat % 16) (by omega)
    have hzero : Text.hexValue? '0' = some 0 := rfl
    have hvalue : 16 * (c.toNat / 16) + c.toNat % 16 = c.toNat := Nat.div_add_mod _ _
    have hend : endUnicode (some read) c.toNat = string (some (c :: read)) := by
      rw [endUnicode, if_neg (by omega), if_neg (by omega), Char.ofNat_toNat]
      rfl
    simp [run, step, inString, inEscape, hzero, hhigh, hlow, hvalue, hend]
  · rename_i hcontrol
    simp [run, step, inString, Decoded.push, hquote, hbackslash, hcontrol]

theorem run_escaped (cs read : List Char) (found : List Token) (rest : List Char) :
    (string (some read)).run found (cs.flatMap escapedChar ++ rest) =
      (string (some (cs.reverse ++ read))).run found rest := by
  induction cs generalizing read with
  | nil => rfl
  | cons c cs ih =>
    rw [List.flatMap_cons, List.append_assoc, run_escapedChar, ih, List.reverse_cons,
      List.append_assoc]
    rfl

/-- A text in quotes has the token of the text. -/
theorem scans_quoted (s : String) : Scans (quoted s) [.str (some s)] := by
  intro found rest _
  have hopen : idle.run found (quoted s ++ rest) =
      (string (some [])).run found (s.toList.flatMap escapedChar ++ '"' :: rest) := by
    rw [quoted, List.cons_append, List.append_assoc]
    rfl
  have hclose : (string (some (s.toList.reverse ++ []))).run found ('"' :: rest) =
      idle.run (.str (some s) :: found) rest := by
    simp [run, step, inString]
  rw [hopen, run_escaped, hclose]
  rfl

/-! ### Values -/

theorem endsWord_eq_false_of_plain {c : Char} (h : Numeral.Plain c) : endsWord c = false := by
  rcases h with hdigit | hsign
  · -- None of the characters that end a word is a digit
    cases hends : endsWord c with
    | false => rfl
    | true =>
      have hmem : c ∈ [' ', '\t', '\n', '\r', '"', '[', ']', '\x7b', '\x7d', ',', ':'] := by
        simp only [endsWord, isSpace, Bool.or_eq_true, beq_iff_eq] at hends
        rcases hends with ((((rfl | rfl) | rfl) | rfl) | rfl) | hp
        · decide
        · decide
        · decide
        · decide
        · decide
        · unfold punctuation? at hp
          split at hp
          · decide
          · decide
          · decide
          · decide
          · decide
          · decide
          · cases hp
      have hnone : [' ', '\t', '\n', '\r', '"', '[', ']', '\x7b', '\x7d', ',', ':'].any
          Char.isDigit = false := by decide
      exact absurd hdigit (List.any_eq_false.mp hnone c hmem)
  · have hnone : ['-', '+', '.', 'e', 'E'].any endsWord = false := by decide
    exact endsWord_eq_false_of_any hnone c hsign

/-- The text of a legible number has the token of the number. -/
theorem scans_number {n : Number} (h : n.isLegible = true) :
    Scans n.text.toList [.num (some n)] := by
  have hread := Number.ofText?_text h
  rw [Number.ofText?] at hread
  obtain ⟨numeral, hnumeral, hnumber⟩ := Option.bind_eq_some_iff.mp hread
  obtain ⟨hne, hplain⟩ := Numeral.plain_of_ofText? hnumeral
  refine scans_word ?_ hne fun c hc => endsWord_eq_false_of_plain (hplain c hc)
  -- No word begins like a numeral
  have hword : ∀ w : List Char, (∀ c ∈ w.head?, ¬ Numeral.Plain c) → w ≠ [] →
      n.text.toList ≠ w := by
    rintro w hw hw' rfl
    cases htext : n.text.toList with
    | nil => exact hne htext
    | cons c cs =>
      rw [htext] at hw hplain
      exact hw c rfl (hplain c List.mem_cons_self)
  have hletter : ¬ Numeral.Plain 'n' ∧ ¬ Numeral.Plain 't' ∧ ¬ Numeral.Plain 'f' := by
    unfold Numeral.Plain
    decide
  obtain ⟨hn, ht, hf⟩ := hletter
  rw [word?, if_neg (hword _ (by simpa using hn) (by decide)),
    if_neg (hword _ (by simpa using ht) (by decide)),
    if_neg (hword _ (by simpa using hf) (by decide)), hnumeral, Option.map_some, hnumber]

theorem scans_scalar : Scans (scalar .null) [.null] ∧
    ∀ b, Scans (scalar (.bool b)) [.bool b] := by
  refine ⟨scans_word rfl (by decide) (endsWord_eq_false_of_any rfl), fun b => ?_⟩
  cases b with
  | false => exact scans_word rfl (by decide) (endsWord_eq_false_of_any rfl)
  | true => exact scans_word rfl (by decide) (endsWord_eq_false_of_any rfl)

theorem ends_prettyElements (level : Nat) (js : List Json) (rest : List Char) :
    Ends (prettyElements level js ++ rest) := by
  cases js with
  | nil =>
    rw [prettyElements, newLine]
    exact ends_cons rfl _
  | cons j js =>
    rw [prettyElements]
    exact ends_cons rfl _

theorem ends_prettyMembers (level : Nat) (ms : List (String × Json)) (rest : List Char) :
    Ends (prettyMembers level ms ++ rest) := by
  cases ms with
  | nil =>
    rw [prettyMembers, newLine]
    exact ends_cons rfl _
  | cons m ms =>
    rw [prettyMembers]
    exact ends_cons rfl _

/-- A member is its key, a colon, and its value. -/
theorem scans_member {cs : List Char} {ts : List Token} (key : String) (h : Scans cs ts) :
    Scans (quoted key ++ ':' :: ' ' :: cs) (.str (some key) :: .colon :: ts) :=
  (scans_quoted key).append ((h.blank rfl).cons rfl) fun _ _ => ends_cons rfl _

mutual

/-- Indented text has the tokens of its value. -/
theorem scans_pretty (level : Nat) :
    (j : Json) → j.isLegible = true → Scans (prettyChars level j) (tokensOf j)
  | .null, _ => scans_scalar.1
  | .bool b, _ => scans_scalar.2 b
  | .num n, h => scans_number h
  | .str s, _ => scans_quoted s
  | .arr [], _ => (scans_nil.cons rfl).cons rfl
  | .arr (j :: rest), h => by
    rw [isLegible, areLegible, Bool.and_eq_true] at h
    rw [prettyChars, tokensOf]
    exact (((scans_pretty (level + 1) j h.1).append (scans_prettyElements level rest h.2)
      fun _ _ => ends_prettyElements _ _ _).newLine (level + 1)).cons rfl
  | .obj [], _ => (scans_nil.cons rfl).cons rfl
  | .obj ((k, j) :: rest), h => by
    rw [isLegible, membersLegible, Bool.and_eq_true] at h
    rw [prettyChars, tokensOf]
    exact ((scans_member k ((scans_pretty (level + 1) j h.1).append
      (scans_prettyMembers level rest h.2) fun _ _ => ends_prettyMembers _ _ _)).newLine
      (level + 1)).cons rfl

theorem scans_prettyElements (level : Nat) :
    (js : List Json) → areLegible js = true →
      Scans (prettyElements level js) (elementTokens js)
  | [], _ => (scans_nil.cons rfl).newLine level
  | j :: rest, h => by
    rw [areLegible, Bool.and_eq_true] at h
    rw [prettyElements, elementTokens]
    exact (((scans_pretty (level + 1) j h.1).append (scans_prettyElements level rest h.2)
      fun _ _ => ends_prettyElements _ _ _).newLine (level + 1)).cons rfl

theorem scans_prettyMembers (level : Nat) :
    (ms : List (String × Json)) → membersLegible ms = true →
      Scans (prettyMembers level ms) (memberTokens ms)
  | [], _ => (scans_nil.cons rfl).newLine level
  | (k, j) :: rest, h => by
    rw [membersLegible, Bool.and_eq_true] at h
    rw [prettyMembers, memberTokens]
    exact ((scans_member k ((scans_pretty (level + 1) j h.1).append
      (scans_prettyMembers level rest h.2) fun _ _ => ends_prettyMembers _ _ _)).newLine
      (level + 1)).cons rfl

end

end Scan

/-! ## Reading -/

namespace Reading

/-- The first value in an array is read like any other. -/
theorem run_firstElement (stack : List Frame) (j : Json) (rest : List Token) :
    (firstElement stack).run (tokensOf j ++ rest) =
      (value (.array [] :: stack)).run (tokensOf j ++ rest) := by
  cases j with
  | null | bool _ | num _ | str _ => rfl
  | arr elements => cases elements <;> rfl
  | obj members => cases members <;> rfl

theorem ofMembers_keyed (members : List (String × Document)) :
    Document.ofMembers (members.map fun m => (some m.1, m.2)) = .obj members := by
  rw [Document.ofMembers, mapM_map_eq_pure_self]
  · rfl
  · intro m _
    rfl

mutual

/-- The tokens of a value read as the value, with any containers still open. -/
theorem run_tokensOf : (j : Json) → (stack : List Frame) → (rest : List Token) →
    (value stack).run (tokensOf j ++ rest) = (ended stack (.ofJson j)).run rest
  | .null, _, _ | .bool _, _, _ | .num _, _, _ | .str _, _, _ => rfl
  | .arr [], _, _ => rfl
  | .arr (j :: js), stack, rest => by
    have hopen : (value stack).run (tokensOf (.arr (j :: js)) ++ rest) =
        (firstElement stack).run (tokensOf j ++ (elementTokens js ++ rest)) := by
      rw [tokensOf, List.cons_append, List.append_assoc]
      rfl
    rw [hopen, run_firstElement, run_tokensOf j, run_elementTokens js]
    rfl
  | .obj [], _, _ => rfl
  | .obj ((k, j) :: ms), stack, rest => by
    have hopen : (value stack).run (tokensOf (.obj ((k, j) :: ms)) ++ rest) =
        (value (.object [] (some k) :: stack)).run (tokensOf j ++ (memberTokens ms ++ rest)) := by
      rw [tokensOf, List.cons_append, List.cons_append, List.cons_append, List.append_assoc]
      rfl
    have hall := ofMembers_keyed (Document.ofJsonMembers ((k, j) :: ms))
    rw [hopen, run_tokensOf j, run_memberTokens ms, List.reverse_nil, List.nil_append]
    exact congrArg (fun d => (ended stack d).run rest) hall

theorem run_elementTokens : (js : List Json) → (stack : List Frame) → (before : List Document) →
    (last : Document) → (rest : List Token) →
    (ended (.array before :: stack) last).run (elementTokens js ++ rest) =
      (ended stack (.arr (before.reverse ++ last :: Document.ofElements js))).run rest
  | [], stack, before, last, rest => by
    rw [elementTokens, Document.ofElements, ← List.reverse_cons]
    rfl
  | j :: js, stack, before, last, rest => by
    have hnext : (ended (.array before :: stack) last).run (elementTokens (j :: js) ++ rest) =
        (value (.array (last :: before) :: stack)).run
          (tokensOf j ++ (elementTokens js ++ rest)) := by
      rw [elementTokens, List.cons_append, List.append_assoc]
      rfl
    rw [hnext, run_tokensOf j, run_elementTokens js, List.reverse_cons, List.append_assoc]
    rfl

theorem run_memberTokens : (ms : List (String × Json)) → (stack : List Frame) →
    (before : List (Option String × Document)) → (key? : Option String) → (last : Document) →
    (rest : List Token) →
    (ended (.object before key? :: stack) last).run (memberTokens ms ++ rest) =
      (ended stack (.ofMembers (before.reverse ++ (key?, last) ::
        (Document.ofJsonMembers ms).map fun m => (some m.1, m.2)))).run rest
  | [], stack, before, key?, last, rest => by
    rw [memberTokens, Document.ofJsonMembers, List.map_nil, ← List.reverse_cons]
    rfl
  | (k, j) :: ms, stack, before, key?, last, rest => by
    have hnext : (ended (.object before key? :: stack) last).run
        (memberTokens ((k, j) :: ms) ++ rest) =
        (value (.object ((key?, last) :: before) (some k) :: stack)).run
          (tokensOf j ++ (memberTokens ms ++ rest)) := by
      rw [memberTokens, List.cons_append, List.cons_append, List.cons_append, List.append_assoc]
      rfl
    rw [hnext, run_tokensOf j, run_memberTokens ms, List.reverse_cons, List.append_assoc]
    rfl

end

end Reading

end Json

/-! ## Depth -/

namespace Document

mutual

/-- What does not nest deeper than a limit stays as it is. -/
theorem within_eq : {d : Document} → {limit : Nat} → d.depth ≤ limit → d.within limit = d
  | .null, _, _ | .bool _, _, _ | .num _, _, _ | .str _, _, _ | .unreadable, _, _ => rfl
  | .arr elements, limit, h => by
    rw [depth] at h
    rw [within, if_neg (by omega), withinList_eq (by omega)]
  | .obj members, limit, h => by
    rw [depth] at h
    rw [within, if_neg (by omega), withinMembers_eq (by omega)]

theorem withinList_eq : {ds : List Document} → {limit : Nat} → depthList ds ≤ limit →
    withinList limit ds = ds
  | [], _, _ => rfl
  | d :: rest, limit, h => by
    rw [depthList] at h
    rw [withinList, within_eq (by omega), withinList_eq (by omega)]

theorem withinMembers_eq : {ms : List (String × Document)} → {limit : Nat} →
    depthMembers ms ≤ limit → withinMembers limit ms = ms
  | [], _, _ => rfl
  | (k, d) :: rest, limit, h => by
    rw [depthMembers] at h
    rw [withinMembers, within_eq (by omega), withinMembers_eq (by omega)]

end

/-- A value whose doubles read back, reads back from its indented text as far as it does not nest
    too deep. -/
theorem ofText?_pretty_within {j : Json} (hlegible : j.isLegible = true) :
    ofText? j.pretty = some ((ofJson j).within Json.nestingLimit) := by
  have htokens : Json.Token.ofText? (Json.prettyChars 0 j) = some (Json.tokensOf j) := by
    have hscan := Json.Scan.scans_pretty 0 j hlegible [] [] nofun
    rw [List.append_nil, List.append_nil] at hscan
    rw [Json.Token.ofText?, hscan, Json.Scan.run, Json.Scan.finish, Option.map_some,
      List.append_nil, List.reverse_reverse]
  have hread : (Json.Reading.value []).run (Json.tokensOf j) = some (ofJson j) := by
    have hrun := Json.Reading.run_tokensOf j [] []
    rw [List.append_nil] at hrun
    exact hrun
  rw [ofText?, Json.pretty, String.toList_ofList, htokens, Option.bind_some, hread,
    Option.map_some]

/-- A value whose doubles read back, and which does not nest too deep, reads back from its
    indented text. -/
theorem ofText?_pretty {j : Json} (hlegible : j.isLegible = true)
    (hdepth : (ofJson j).depth ≤ Json.nestingLimit) : ofText? j.pretty = some (ofJson j) := by
  rw [ofText?_pretty_within hlegible, within_eq hdepth]

end Document

end ProfileMigration
