/-
  ProfileMigration.Proofs.Sequence.Split

  Lists split at one of their elements, into what comes before it and what comes after:

    split_of_snoc           -- in a list that has grown by one
    split_of_append         -- in one of two parts
    split_of_not_mem        -- after a part that the element is not in
    split_of_not_mem_right  -- before such a part
    forall_mem_of_before    -- induction on what comes before

  Turns of a build and deliveries of a push are judged by what came before them, so that most of
  what holds of them is said of such splits.
-/

namespace ProfileMigration

variable {α : Type} {xs ys before after : List α} {x last : α}

/-- An element of a list that has grown by one is the new one, with the old list before it, or
    stands in the old list. -/
theorem split_of_snoc (h : xs ++ [last] = before ++ x :: after) :
    (xs = before ∧ last = x) ∨ ∃ rest, xs = before ++ x :: rest := by
  rcases List.eq_nil_or_concat after with rfl | ⟨rest, final, rfl⟩
  · obtain ⟨hxs, hlast⟩ := List.append_inj' h rfl
    exact .inl ⟨hxs, List.singleton_inj.mp hlast⟩
  · rw [List.concat_eq_append, ← List.cons_append, ← List.append_assoc] at h
    exact .inr ⟨rest, (List.append_inj' h rfl).1⟩

/-- An element of two lists in a row stands in one of them. -/
theorem split_of_append (h : xs ++ ys = before ++ x :: after) :
    (∃ rest, xs = before ++ x :: rest ∧ after = rest ++ ys) ∨
      ∃ between, before = xs ++ between ∧ ys = between ++ x :: after := by
  rcases List.append_eq_append_iff.mp h with ⟨between, hbefore, hys⟩ | ⟨rest, hxs, hrest⟩
  · exact .inr ⟨between, hbefore, hys⟩
  · cases rest with
    | nil =>
      rw [List.append_nil] at hxs
      exact .inr ⟨[], by rw [hxs, List.append_nil], hrest.symm⟩
    | cons y rest =>
      obtain ⟨rfl, hafter⟩ := List.cons.inj hrest
      exact .inl ⟨rest, hxs, hafter⟩

/-- What is not in the first part of a list stands in the second. -/
theorem split_of_not_mem (hx : x ∉ xs) (h : xs ++ ys = before ++ x :: after) :
    ∃ between, before = xs ++ between ∧ ys = between ++ x :: after := by
  refine (split_of_append h).resolve_left ?_
  rintro ⟨rest, hxs, -⟩
  exact hx (by rw [hxs]; simp)

/-- What is not in the second part of a list stands in the first. -/
theorem split_of_not_mem_right (hx : x ∉ ys) (h : xs ++ ys = before ++ x :: after) :
    ∃ between, xs = before ++ x :: between ∧ after = between ++ ys := by
  refine (split_of_append h).resolve_right ?_
  rintro ⟨between, -, hys⟩
  exact hx (by rw [hys]; simp)

/-- What every element of a list has if those before it have it, all of them have. -/
theorem forall_mem_of_before {P : α → Prop}
    (h : ∀ before x after, xs = before ++ x :: after → (∀ y ∈ before, P y) → P x) :
    ∀ x ∈ xs, P x := by
  suffices hgo : ∀ (todo done : List α), xs = done ++ todo → (∀ y ∈ done, P y) →
      ∀ x ∈ xs, P x from hgo xs [] rfl nofun
  intro todo
  induction todo with
  | nil =>
    intro done hsplit hdone
    rw [hsplit, List.append_nil]
    exact hdone
  | cons x todo ih =>
    intro done hsplit hdone
    refine ih (done ++ [x]) ?_ ?_
    · rw [hsplit, List.append_assoc]
      rfl
    · exact List.forall_mem_append.mpr
        ⟨hdone, List.forall_mem_singleton.mpr (h done x todo hsplit hdone)⟩

end ProfileMigration
