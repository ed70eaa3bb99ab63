/-
  ProfileMigration.Proofs.Text.Pieces

  Texts put together from pieces and cut into them again:

    Text.splitBy_append_cons    -- the first piece ends at the first cut
    Text.splitBy_intercalate    -- pieces with a character between them are cut apart at it
    Text.intercalate_splitBy    -- and a text is its pieces with the character between them
    Text.cut_or_mem_splitBy     -- every character is a cut or stands in a piece
    Text.not_cut_of_mem_splitBy -- and no cut stands in a piece
-/
import ProfileMigration.Text.Blank

namespace ProfileMigration.Text

variable {cut : Char → Bool} {d : Char} {cs : List Char}

/-- A text without a cut is one piece. -/
theorem splitBy_eq_singleton (h : ∀ c ∈ cs, cut c = false) : splitBy cut cs = [cs] := by
  induction cs with
  | nil => rfl
  | cons c rest ih =>
    obtain ⟨hc, hrest⟩ := List.forall_mem_cons.mp h
    rw [splitBy, hc, ih hrest]
    rfl

/-- The first piece ends at the first cut. -/
theorem splitBy_append_cons (h : ∀ c ∈ cs, cut c = false) (hd : cut d = true)
    (rest : List Char) : splitBy cut (cs ++ d :: rest) = cs :: splitBy cut rest := by
  induction cs with
  | nil => rw [List.nil_append, splitBy, if_pos hd]
  | cons c more ih =>
    obtain ⟨hc, hmore⟩ := List.forall_mem_cons.mp h
    rw [List.cons_append, splitBy, hc, ih hmore]
    rfl

/-- Pieces with a character between them are cut apart at that character. -/
theorem splitBy_intercalate {pieces : List (List Char)} (hne : pieces ≠ [])
    (h : ∀ piece ∈ pieces, d ∉ piece) :
    splitBy (· = d) (List.intercalate [d] pieces) = pieces := by
  have huncut : ∀ piece ∈ pieces, ∀ c ∈ piece, decide (c = d) = false :=
    fun piece hpiece c hc => decide_eq_false fun hcd => h piece hpiece (hcd ▸ hc)
  induction pieces with
  | nil => exact absurd rfl hne
  | cons piece rest ih =>
    obtain ⟨hpiece, hrest⟩ := List.forall_mem_cons.mp huncut
    cases rest with
    | nil => rw [List.intercalate_singleton, splitBy_eq_singleton hpiece]
    | cons next more =>
      rw [List.intercalate_cons_cons, List.append_assoc, List.singleton_append,
        splitBy_append_cons hpiece (decide_eq_true rfl),
        ih (List.cons_ne_nil _ _) (List.forall_mem_cons.mp h).2 hrest]

/-- Cutting loses nothing: the pieces with the character between them are the text. -/
theorem intercalate_splitBy (d : Char) (cs : List Char) :
    List.intercalate [d] (splitBy (· = d) cs) = cs := by
  induction cs with
  | nil => rw [splitBy, List.intercalate_singleton]
  | cons c rest ih =>
    obtain ⟨piece, pieces, hsplit⟩ := List.exists_cons_of_ne_nil (splitBy_ne_nil (· = d) rest)
    rw [hsplit] at ih
    rw [splitBy]
    split
    · rename_i hcut
      rw [hsplit, List.intercalate_cons_cons, ih, of_decide_eq_true hcut]
      rfl
    · -- The first character belongs to the first piece
      rw [hsplit]
      dsimp only
      cases pieces with
      | nil =>
        rw [List.intercalate_singleton] at ih ⊢
        rw [ih]
      | cons next more =>
        rw [List.intercalate_cons_cons] at ih ⊢
        rw [List.cons_append, List.cons_append, ih]

/-- Every character of a text is a cut or stands in a piece. -/
theorem cut_or_mem_splitBy (cut : Char → Bool) {c : Char} (hc : c ∈ cs) :
    cut c = true ∨ ∃ piece ∈ splitBy cut cs, c ∈ piece := by
  induction cs with
  | nil => cases hc
  | cons first rest ih =>
    rw [splitBy]
    split
    · rename_i hfirst
      rcases List.mem_cons.mp hc with rfl | hc
      · exact .inl hfirst
      · refine (ih hc).imp_right ?_
        rintro ⟨piece, hpiece, hmem⟩
        exact ⟨piece, List.mem_cons_of_mem _ hpiece, hmem⟩
    · split
      · rename_i piece pieces hsplit
        rcases List.mem_cons.mp hc with rfl | hc
        · exact .inr ⟨_, List.mem_cons_self, List.mem_cons_self⟩
        · refine (ih hc).imp_right ?_
          rintro ⟨other, hother, hmem⟩
          rw [hsplit] at hother
          rcases List.mem_cons.mp hother with rfl | hother
          · exact ⟨_, List.mem_cons_self, List.mem_cons_of_mem _ hmem⟩
          · exact ⟨other, List.mem_cons_of_mem _ hother, hmem⟩
      · rename_i hsplit
        exact absurd hsplit (splitBy_ne_nil cut rest)

/-- No cut stands in a piece. -/
theorem not_cut_of_mem_splitBy {cut : Char → Bool} {piece : List Char}
    (h : piece ∈ splitBy cut cs) : ∀ c ∈ piece, cut c = false := by
  induction cs generalizing piece with
  | nil =>
    rw [splitBy, List.mem_singleton] at h
    rw [h]
    exact List.forall_mem_nil _
  | cons first rest ih =>
    rw [splitBy] at h
    split at h
    · rcases List.mem_cons.mp h with rfl | h
      · exact List.forall_mem_nil _
      · exact ih h
    · rename_i hfirst
      split at h
      · rename_i next pieces hsplit
        rw [hsplit] at ih
        rcases List.mem_cons.mp h with rfl | h
        · exact List.forall_mem_cons.mpr ⟨Bool.eq_false_iff.mpr hfirst, ih List.mem_cons_self⟩
        · exact ih (List.mem_cons_of_mem _ h)
      · rename_i hsplit
        exact absurd hsplit (splitBy_ne_nil cut rest)

end ProfileMigration.Text
