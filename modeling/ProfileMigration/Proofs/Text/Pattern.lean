/-
  ProfileMigration.Proofs.Text.Pattern

  Patterns of text, and the texts that they are found in:

    Pattern                     -- fixed texts, characters, rows, choices, repetitions, both ends
    Pattern.Matches             -- a part of a text matches, between what stands around it
    Pattern.FoundIn             -- some part of a text matches
    Pattern.whole               -- a pattern between both ends
    Pattern.foundIn_whole_iff   -- it is found in the texts that match it as a whole

  A search may begin and end anywhere, so only the ends of the text keep it from passing over what
  stands before and after a match. Whether there is a match is all that is asked here, not which
  one of several is taken.
-/

namespace ProfileMigration

/-- A pattern of text. -/
inductive Pattern where
  /-- Where the text starts. -/
  | start
  /-- Where it ends, and nowhere before. -/
  | stop
  /-- A fixed text. -/
  | text (s : String)
  /-- One character of a class. -/
  | one (among : Char → Bool)
  /-- Two patterns in a row. -/
  | seq (p q : Pattern)
  /-- One of two patterns. -/
  | either (p q : Pattern)
  /-- A pattern once or more often in a row. -/
  | plus (p : Pattern)

namespace Pattern

/-- A pattern matches a part of a text, with given characters before and after it. -/
inductive Matches : Pattern → (before part after : List Char) → Prop where
  | start {after} : Matches start [] [] after
  | stop {before} : Matches stop before [] []
  | text {s before after} : Matches (text s) before s.toList after
  | one {among before c after} (h : among c = true) : Matches (one among) before [c] after
  | seq {p q before xs ys after} (hp : Matches p before xs (ys ++ after))
      (hq : Matches q (before ++ xs) ys after) : Matches (seq p q) before (xs ++ ys) after
  | left {p q before part after} (h : Matches p before part after) :
      Matches (either p q) before part after
  | right {p q before part after} (h : Matches q before part after) :
      Matches (either p q) before part after
  | once {p before part after} (h : Matches p before part after) :
      Matches (plus p) before part after
  | again {p before xs ys after} (h : Matches p before xs (ys ++ after))
      (hmore : Matches (plus p) (before ++ xs) ys after) :
      Matches (plus p) before (xs ++ ys) after

/-- A pattern is found in a text if some part of it matches. -/
def FoundIn (p : Pattern) (s : String) : Prop :=
  ∃ before part after, s.toList = before ++ part ++ after ∧ p.Matches before part after

/-- A pattern from the start of a text to its end. -/
def whole (p : Pattern) : Pattern := start.seq (p.seq stop)

variable {p q : Pattern} {before part after : List Char} {among : Char → Bool} {s : String}

/-! ## One constructor at a time -/

theorem matches_start_iff : start.Matches before part after ↔ before = [] ∧ part = [] := by
  constructor
  · intro h
    cases h with
    | start => exact ⟨rfl, rfl⟩
  · rintro ⟨rfl, rfl⟩
    exact .start

theorem matches_stop_iff : stop.Matches before part after ↔ part = [] ∧ after = [] := by
  constructor
  · intro h
    cases h with
    | stop => exact ⟨rfl, rfl⟩
  · rintro ⟨rfl, rfl⟩
    exact .stop

theorem matches_text_iff : (text s).Matches before part after ↔ part = s.toList := by
  constructor
  · intro h
    cases h with
    | text => rfl
  · rintro rfl
    exact .text

theorem matches_one_iff :
    (one among).Matches before part after ↔ ∃ c, among c = true ∧ part = [c] := by
  constructor
  · intro h
    cases h with
    | one hc => exact ⟨_, hc, rfl⟩
  · rintro ⟨c, hc, rfl⟩
    exact .one hc

theorem matches_seq_iff : (p.seq q).Matches before part after ↔ ∃ xs ys, part = xs ++ ys ∧
    p.Matches before xs (ys ++ after) ∧ q.Matches (before ++ xs) ys after := by
  constructor
  · intro h
    cases h with
    | seq hp hq => exact ⟨_, _, rfl, hp, hq⟩
  · rintro ⟨xs, ys, rfl, hp, hq⟩
    exact .seq hp hq

theorem matches_either_iff : (p.either q).Matches before part after ↔
    p.Matches before part after ∨ q.Matches before part after := by
  constructor
  · intro h
    cases h with
    | left hp => exact .inl hp
    | right hq => exact .inr hq
  · rintro (hp | hq)
    · exact .left hp
    · exact .right hq

theorem matches_plus_iff : p.plus.Matches before part after ↔ p.Matches before part after ∨
    ∃ xs ys, part = xs ++ ys ∧ p.Matches before xs (ys ++ after) ∧
      p.plus.Matches (before ++ xs) ys after := by
  constructor
  · intro h
    cases h with
    | once hp => exact .inl hp
    | again hp hmore => exact .inr ⟨_, _, rfl, hp, hmore⟩
  · rintro (hp | ⟨xs, ys, rfl, hp, hmore⟩)
    · exact .once hp
    · exact .again hp hmore

/-! ## Runs, separators and whole texts -/

/-- Two patterns with a fixed text between them. -/
theorem matches_seq_text_iff : (p.seq ((text s).seq q)).Matches before part after ↔ ∃ xs ys,
    part = xs ++ (s.toList ++ ys) ∧ p.Matches before xs (s.toList ++ ys ++ after) ∧
      q.Matches (before ++ xs ++ s.toList) ys after := by
  constructor
  · intro h
    obtain ⟨xs, rest, rfl, hp, h⟩ := matches_seq_iff.mp h
    obtain ⟨between, ys, rfl, htext, hq⟩ := matches_seq_iff.mp h
    obtain rfl := matches_text_iff.mp htext
    exact ⟨xs, ys, rfl, hp, hq⟩
  · rintro ⟨xs, ys, rfl, hp, hq⟩
    exact .seq hp (.seq .text hq)

/-- Several characters of a class in a row, whatever stands around them. -/
theorem matches_plus_one_iff : (one among).plus.Matches before part after ↔
    part ≠ [] ∧ ∀ c ∈ part, among c = true := by
  -- Each character but the last one is a repetition of its own
  induction part generalizing before with
  | nil =>
    refine iff_of_false (fun h => ?_) fun h => h.1 rfl
    rcases matches_plus_iff.mp h with hone | ⟨xs, ys, hpart, hone, -⟩
    · obtain ⟨c, -, hc⟩ := matches_one_iff.mp hone
      cases hc
    · obtain ⟨c, -, rfl⟩ := matches_one_iff.mp hone
      cases hpart
  | cons d rest ih =>
    rw [List.forall_mem_cons]
    constructor
    · intro h
      refine ⟨List.cons_ne_nil d rest, ?_⟩
      rcases matches_plus_iff.mp h with hone | ⟨xs, ys, hpart, hone, hmore⟩
      -- The last repetition
      · obtain ⟨c, hc, hpart⟩ := matches_one_iff.mp hone
        obtain ⟨rfl, rfl⟩ := List.cons.inj hpart
        exact ⟨hc, List.forall_mem_nil _⟩
      · obtain ⟨c, hc, rfl⟩ := matches_one_iff.mp hone
        obtain ⟨rfl, rfl⟩ := List.cons.inj hpart
        exact ⟨hc, (ih.mp hmore).2⟩
    · rintro ⟨-, hd, hrest⟩
      by_cases hnil : rest = []
      · subst hnil
        exact .once (.one hd)
      · have hmore : (one among).plus.Matches (before ++ [d]) rest after := ih.mpr ⟨hnil, hrest⟩
        have hall : (one among).plus.Matches before ([d] ++ rest) after := .again (.one hd) hmore
        exact hall

/-- Between both ends a pattern is found exactly in the texts that it matches as a whole: nothing
    may stand before or after. -/
theorem foundIn_whole_iff : p.whole.FoundIn s ↔ p.Matches [] s.toList [] := by
  constructor
  · rintro ⟨before, part, after, hs, h⟩
    obtain ⟨front, rest, rfl, hstart, h⟩ := matches_seq_iff.mp h
    obtain ⟨rfl, rfl⟩ := matches_start_iff.mp hstart
    obtain ⟨middle, back, rfl, hmiddle, hstop⟩ := matches_seq_iff.mp h
    obtain ⟨rfl, rfl⟩ := matches_stop_iff.mp hstop
    -- Both ends are passed, so nothing stands around what is left
    have htext : s.toList = middle := by simpa using hs
    rw [htext]
    exact hmiddle
  · intro h
    have hstop : (p.seq stop).Matches ([] ++ []) (s.toList ++ []) [] := .seq h .stop
    refine ⟨[], [] ++ (s.toList ++ []), [], by simp, ?_⟩
    exact .seq .start hstop

end Pattern

end ProfileMigration
