/-
  ProfileMigration.Proofs.Sequence.Erase

  Lists without one of the elements that satisfy a predicate, given by its number among them:

    eraseNth                        -- the list without the element
    eraseNth_append_cons            -- where the element stands
    filter_eraseNth_of_imp          -- what is left of a part that has all such elements
    filter_eraseNth_of_imp_false    -- a part that has none of them stays as it is
-/

namespace ProfileMigration

variable {α : Type} {p q : α → Bool}

/-- The list without the element number `n`, from zero, of those that satisfy a predicate. -/
def eraseNth (p : α → Bool) : Nat → List α → List α
  | _, [] => []
  | 0, x :: xs => if p x then xs else x :: eraseNth p 0 xs
  | n + 1, x :: xs => x :: eraseNth p (if p x then n else n + 1) xs

theorem eraseNth_cons_of_neg {x : α} (hx : p x = false) (n : Nat) (xs : List α) :
    eraseNth p n (x :: xs) = x :: eraseNth p n xs := by
  cases n with
  | zero => simp [eraseNth, hx]
  | succ n => simp [eraseNth, hx]

theorem eraseNth_succ_cons_of_pos {x : α} (hx : p x = true) (n : Nat) (xs : List α) :
    eraseNth p (n + 1) (x :: xs) = x :: eraseNth p n xs := by
  simp [eraseNth, hx]

theorem eraseNth_zero_cons_of_pos {x : α} (hx : p x = true) (xs : List α) :
    eraseNth p 0 (x :: xs) = xs := by
  simp [eraseNth, hx]

/-- The element that is left out has as many such elements before it as its number says. -/
theorem eraseNth_append_cons {x : α} (hx : p x = true) (before after : List α) :
    eraseNth p (before.countP p) (before ++ x :: after) = before ++ after := by
  induction before with
  | nil => exact eraseNth_zero_cons_of_pos hx after
  | cons y before ih =>
    rw [List.cons_append, List.cons_append]
    cases hy : p y with
    | false =>
      rw [List.countP_cons_of_neg (by simp [hy]), eraseNth_cons_of_neg hy, ih]
    | true =>
      rw [List.countP_cons_of_pos hy, eraseNth_succ_cons_of_pos hy, ih]

theorem filter_eraseNth_of_imp (hpq : ∀ x, p x = true → q x = true) (n : Nat) (xs : List α) :
    (eraseNth p n xs).filter q = eraseNth p n (xs.filter q) := by
  induction xs generalizing n with
  | nil => simp [eraseNth]
  | cons x xs ih =>
    cases hx : p x with
    | false =>
      rw [eraseNth_cons_of_neg hx, List.filter_cons, List.filter_cons, ih]
      cases q x with
      | false => rfl
      | true => exact (eraseNth_cons_of_neg hx n _).symm
    | true =>
      have hq := hpq x hx
      rw [List.filter_cons_of_pos hq]
      cases n with
      | zero => rw [eraseNth_zero_cons_of_pos hx, eraseNth_zero_cons_of_pos hx]
      | succ n =>
        rw [eraseNth_succ_cons_of_pos hx, eraseNth_succ_cons_of_pos hx, List.filter_cons_of_pos hq,
          ih]

theorem filter_eraseNth_of_imp_false (hpq : ∀ x, p x = true → q x = false) (n : Nat)
    (xs : List α) : (eraseNth p n xs).filter q = xs.filter q := by
  induction xs generalizing n with
  | nil => simp [eraseNth]
  | cons x xs ih =>
    cases hx : p x with
    | false => rw [eraseNth_cons_of_neg hx, List.filter_cons, List.filter_cons, ih]
    | true =>
      have hq : ¬ q x = true := by simp [hpq x hx]
      rw [List.filter_cons_of_neg hq]
      cases n with
      | zero => rw [eraseNth_zero_cons_of_pos hx]
      | succ n => rw [eraseNth_succ_cons_of_pos hx, List.filter_cons_of_neg hq, ih]

end ProfileMigration
