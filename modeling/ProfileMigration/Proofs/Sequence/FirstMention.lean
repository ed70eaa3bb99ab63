/-
  ProfileMigration.Proofs.Sequence.FirstMention

  Lists without repetitions, in order of first mention:

    eraseDups_snoc_of_mem / eraseDups_snoc_of_not_mem -- what one more mention changes
    pairwise_idxOf_eraseDups    -- elements stand in the order in which they are first mentioned
    nodup_eraseDups             -- each of them once
    find?_eraseDups             -- the first of a kind is the same with repetitions and without
-/
import Mathlib.Data.List.Basic
import Mathlib.Data.List.Induction

namespace ProfileMigration

variable {α : Type} [DecidableEq α] {xs : List α} {x : α}

/-- An element that has been mentioned before adds nothing. -/
theorem eraseDups_snoc_of_mem (h : x ∈ xs) : (xs ++ [x]).eraseDups = xs.eraseDups := by
  have hnothing : [x].removeAll xs = [] := by simp [List.removeAll, h]
  rw [List.eraseDups_append, hnothing, List.eraseDups_nil, List.append_nil]

/-- A new element comes last. -/
theorem eraseDups_snoc_of_not_mem (h : x ∉ xs) :
    (xs ++ [x]).eraseDups = xs.eraseDups ++ [x] := by
  have hall : [x].removeAll xs = [x] := by simp [List.removeAll, h]
  rw [List.eraseDups_append, hall]
  rfl

/-- Without repetitions, elements stand in the order in which they are first mentioned. -/
theorem pairwise_idxOf_eraseDups (xs : List α) :
    xs.eraseDups.Pairwise fun a b => xs.idxOf a < xs.idxOf b := by
  induction xs using List.reverseRecOn with
  | nil => exact .nil
  | append_singleton xs x ih =>
    -- The places of earlier elements do not change when one more is mentioned
    have hplace : ∀ {a}, a ∈ xs.eraseDups → (xs ++ [x]).idxOf a = xs.idxOf a :=
      fun ha => List.idxOf_append_of_mem (List.mem_eraseDups.mp ha)
    have hearlier : xs.eraseDups.Pairwise fun a b => (xs ++ [x]).idxOf a < (xs ++ [x]).idxOf b := by
      refine ih.imp_of_mem fun ha hb hlt => ?_
      rw [hplace ha, hplace hb]
      exact hlt
    by_cases hx : x ∈ xs
    · rw [eraseDups_snoc_of_mem hx]
      exact hearlier
    · rw [eraseDups_snoc_of_not_mem hx]
      refine List.pairwise_append.mpr ⟨hearlier, List.pairwise_singleton _ _, ?_⟩
      intro a ha b hb
      obtain rfl := List.mem_singleton.mp hb
      rw [hplace ha, List.idxOf_append_of_notMem hx]
      have hlt : xs.idxOf a < xs.length := List.idxOf_lt_length_iff.mpr (List.mem_eraseDups.mp ha)
      omega

theorem nodup_eraseDups (xs : List α) : xs.eraseDups.Nodup :=
  (pairwise_idxOf_eraseDups xs).imp fun hlt heq => by
    rw [heq] at hlt
    exact Nat.lt_irrefl _ hlt

/-- The first element of a kind is the same with repetitions and without. -/
theorem find?_eraseDups (p : α → Bool) (xs : List α) : xs.eraseDups.find? p = xs.find? p := by
  induction xs using List.reverseRecOn with
  | nil => rfl
  | append_singleton xs x ih =>
    by_cases hx : x ∈ xs
    · rw [eraseDups_snoc_of_mem hx, ih, List.find?_append]
      cases hfind : xs.find? p with
      | some y => rfl
      | none =>
        -- What is mentioned again is not of the kind, as it was not the first time
        have hnot : p x = false := Bool.eq_false_iff.mpr (List.find?_eq_none.mp hfind x hx)
        simp [hnot]
    · rw [eraseDups_snoc_of_not_mem hx, List.find?_append, List.find?_append, ih]

end ProfileMigration
