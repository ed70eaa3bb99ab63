/-
  ProfileMigration.Proofs.Sequence.Traverse

  Readings of lists, element by element:

    mapM_map_eq_pure        -- when every element reads, so does the list
    mapM_map_eq_pure_self   -- when every element reads as itself, so does the list
    isSome_of_mapM_eq_some  -- when the list reads, so does every element
    isSome_mapM             -- when every element reads as something, so does the list
    exists_of_mem_mapM      -- each element of the outcome is what an element of the list reads as
    eq_map_of_mapM_eq_some  -- a list reads as nothing but what it is written as, if elements do
    mapM_eq_ok_iff          -- a list with failures reads exactly if every element does, in order
    mapM_eq_error_iff       -- and it fails as the first element that fails
    exists_mapM_eq_ok_iff   -- so that it reads exactly if none does
    mapM_eq_error_of_alike  -- and if all failures are the same one, with that one
    mapM_congr, foldlM_congr -- lists whose elements read alike, one by one, do too
    forall₂_congr_of_mem    -- and relations that agree on elements agree on lists
    map_eq_self_iff         -- a list stays as it is if every element does
-/
import Mathlib.Data.List.Forall2

namespace ProfileMigration

/-- When every element of a list, as written, reads as something, the list as written reads as
    the list of those. -/
theorem mapM_map_eq_pure {m : Type → Type} [Monad m] [LawfulMonad m] {α β γ : Type}
    {write : α → β} {read : β → m γ} {value : α → γ} {xs : List α}
    (h : ∀ x ∈ xs, read (write x) = pure (value x)) :
    (xs.map write).mapM read = pure (xs.map value) := by
  induction xs with
  | nil => rw [List.map_nil, List.mapM_nil, List.map_nil]
  | cons x rest ih =>
    obtain ⟨hx, hrest⟩ := List.forall_mem_cons.mp h
    rw [List.map_cons, List.mapM_cons, hx, pure_bind, ih hrest, pure_bind, List.map_cons]

/-- When every element as written reads as itself, the list does. -/
theorem mapM_map_eq_pure_self {m : Type → Type} [Monad m] [LawfulMonad m] {α β : Type}
    {write : α → β} {read : β → m α} {xs : List α} (h : ∀ x ∈ xs, read (write x) = pure x) :
    (xs.map write).mapM read = pure xs := by
  have hread := mapM_map_eq_pure h
  rwa [List.map_id'] at hread

/-- When a list reads, every element of it does. -/
theorem isSome_of_mapM_eq_some {α β : Type} {read : α → Option β} {xs : List α} {ys : List β}
    (h : xs.mapM read = some ys) : ∀ x ∈ xs, (read x).isSome := by
  induction xs generalizing ys with
  | nil => exact List.forall_mem_nil _
  | cons x rest ih =>
    rw [List.mapM_cons, Option.bind_eq_bind, Option.bind_eq_some_iff] at h
    obtain ⟨y, hy, hrest⟩ := h
    rw [Option.bind_eq_bind, Option.bind_eq_some_iff] at hrest
    obtain ⟨zs, hzs, -⟩ := hrest
    exact List.forall_mem_cons.mpr ⟨Option.isSome_of_eq_some hy, ih hzs⟩

/-- When every element reads, the list does. -/
theorem isSome_mapM {α β : Type} {read : α → Option β} {xs : List α}
    (h : ∀ x ∈ xs, (read x).isSome) : (xs.mapM read).isSome := by
  induction xs with
  | nil => rfl
  | cons x rest ih =>
    obtain ⟨hx, hrest⟩ := List.forall_mem_cons.mp h
    obtain ⟨y, hy⟩ := Option.isSome_iff_exists.mp hx
    obtain ⟨ys, hys⟩ := Option.isSome_iff_exists.mp (ih hrest)
    rw [List.mapM_cons, hy, hys]
    rfl

/-- Whatever is in the outcome of a list is what one of its elements reads as. -/
theorem exists_of_mem_mapM {α β : Type} {read : α → Option β} {xs : List α} {ys : List β}
    (h : xs.mapM read = some ys) : ∀ y ∈ ys, ∃ x ∈ xs, read x = some y := by
  induction xs generalizing ys with
  | nil =>
    obtain rfl := Option.some.inj h
    exact List.forall_mem_nil _
  | cons x rest ih =>
    rw [List.mapM_cons, Option.bind_eq_bind, Option.bind_eq_some_iff] at h
    obtain ⟨y, hy, hrest⟩ := h
    rw [Option.bind_eq_bind, Option.bind_eq_some_iff] at hrest
    obtain ⟨zs, hzs, hys⟩ := hrest
    obtain rfl := Option.some.inj hys
    refine List.forall_mem_cons.mpr ⟨⟨x, List.mem_cons_self, hy⟩, fun z hz => ?_⟩
    obtain ⟨x', hx', hz'⟩ := ih hzs z hz
    exact ⟨x', List.mem_cons_of_mem x hx', hz'⟩

/-- When elements read as something only if they are what it is written as, so does the list. -/
theorem eq_map_of_mapM_eq_some {α β : Type} {read : α → Option β} {write : β → α}
    (h : ∀ x y, read x = some y → x = write y) {xs : List α} {ys : List β}
    (hread : xs.mapM read = some ys) : xs = ys.map write := by
  induction xs generalizing ys with
  | nil =>
    obtain rfl := Option.some.inj hread
    rfl
  | cons x rest ih =>
    rw [List.mapM_cons, Option.bind_eq_bind, Option.bind_eq_some_iff] at hread
    obtain ⟨y, hy, hrest⟩ := hread
    rw [Option.bind_eq_bind, Option.bind_eq_some_iff] at hrest
    obtain ⟨zs, hzs, hys⟩ := hrest
    obtain rfl := Option.some.inj hys
    rw [List.map_cons, ← h x y hy, ← ih hzs]

/-- Where reading may fail, a list reads as what its elements read as, one by one. -/
theorem mapM_eq_ok_iff {ε α β : Type} {read : α → Except ε β} {xs : List α} {ys : List β} :
    xs.mapM read = .ok ys ↔ List.Forall₂ (fun x y => read x = .ok y) xs ys := by
  induction xs generalizing ys with
  | nil =>
    rw [List.mapM_nil, List.forall₂_nil_left_iff]
    exact ⟨fun h => (Except.ok.inj h).symm, fun h => congrArg Except.ok h.symm⟩
  | cons x rest ih =>
    rw [List.mapM_cons, List.forall₂_cons_left_iff]
    constructor
    · intro h
      cases hx : read x with
      | error e =>
        rw [hx] at h
        cases h
      | ok y =>
        cases hrest : rest.mapM read with
        | error e =>
          rw [hx, hrest] at h
          cases h
        | ok zs =>
          rw [hx, hrest] at h
          exact ⟨y, zs, rfl, ih.mp hrest, (Except.ok.inj h).symm⟩
    · rintro ⟨y, zs, hy, hzs, rfl⟩
      rw [hy, ih.mpr hzs]
      rfl

/-- It fails as the first element does that does not read. -/
theorem mapM_eq_error_iff {ε α β : Type} {read : α → Except ε β} {xs : List α} {e : ε} :
    xs.mapM read = .error e ↔ ∃ before x after, xs = before ++ x :: after ∧
      (∀ y ∈ before, ∃ z, read y = .ok z) ∧ read x = .error e := by
  induction xs with
  | nil =>
    rw [List.mapM_nil]
    constructor
    · intro h
      cases h
    · rintro ⟨before, x, after, h, -⟩
      cases before with
      | nil | cons => cases h
  | cons x rest ih =>
    rw [List.mapM_cons]
    cases hx : read x with
    | error e' =>
      constructor
      · intro h
        obtain rfl := Except.error.inj h
        exact ⟨[], x, rest, rfl, List.forall_mem_nil _, hx⟩
      · rintro ⟨before, y, after, hsplit, hbefore, hy⟩
        cases before with
        | nil =>
          obtain ⟨rfl, -⟩ := List.cons.inj hsplit
          rw [Except.error.inj (hx.symm.trans hy)]
          rfl
        | cons first more =>
          obtain ⟨rfl, -⟩ := List.cons.inj hsplit
          obtain ⟨z, hz⟩ := hbefore x List.mem_cons_self
          cases hx.symm.trans hz
    | ok y =>
      -- What follows decides
      have hlater : ((Except.ok y : Except ε β) >>= fun b => rest.mapM read >>= fun bs =>
          pure (b :: bs)) = .error e ↔ rest.mapM read = .error e := by
        cases rest.mapM read with
        | error e' => exact Iff.rfl
        | ok zs =>
          constructor
          · intro h
            cases h
          · intro h
            cases h
      rw [hlater, ih]
      constructor
      · rintro ⟨before, z, after, rfl, hbefore, hz⟩
        exact ⟨x :: before, z, after, rfl, List.forall_mem_cons.mpr ⟨⟨y, hx⟩, hbefore⟩, hz⟩
      · rintro ⟨before, z, after, hsplit, hbefore, hz⟩
        cases before with
        | nil =>
          obtain ⟨rfl, -⟩ := List.cons.inj hsplit
          cases hx.symm.trans hz
        | cons first more =>
          obtain ⟨rfl, rfl⟩ := List.cons.inj hsplit
          exact ⟨more, z, after, rfl, (List.forall_mem_cons.mp hbefore).2, hz⟩

theorem exists_mapM_eq_ok_iff {ε α β : Type} {read : α → Except ε β} {xs : List α} :
    (∃ ys, xs.mapM read = .ok ys) ↔ ∀ x ∈ xs, ∃ y, read x = .ok y := by
  constructor
  · rintro ⟨ys, h⟩
    have hread := mapM_eq_ok_iff.mp h
    clear h
    induction hread with
    | nil => exact List.forall_mem_nil _
    | cons hxy _ ih => exact List.forall_mem_cons.mpr ⟨⟨_, hxy⟩, ih⟩
  · intro h
    cases hread : xs.mapM read with
    | ok ys => exact ⟨ys, rfl⟩
    | error e =>
      obtain ⟨before, x, after, rfl, -, hx⟩ := mapM_eq_error_iff.mp hread
      obtain ⟨y, hy⟩ := h x (List.mem_append_right _ List.mem_cons_self)
      cases hx.symm.trans hy

/-- Where all failures are the same one, the list fails with it if anything does. -/
theorem mapM_eq_error_of_alike {ε α β : Type} {read : α → Except ε β} {xs : List α} {e : ε}
    (hall : ∀ x ∈ xs, (∃ y, read x = .ok y) ∨ read x = .error e)
    (hsome : ∃ x ∈ xs, read x = .error e) : xs.mapM read = .error e := by
  cases hread : xs.mapM read with
  | ok ys =>
    obtain ⟨x, hmem, hx⟩ := hsome
    obtain ⟨y, hy⟩ := exists_mapM_eq_ok_iff.mp ⟨ys, hread⟩ x hmem
    cases hx.symm.trans hy
  | error e' =>
    obtain ⟨before, x, after, rfl, -, hx⟩ := mapM_eq_error_iff.mp hread
    rcases hall x (List.mem_append_right _ List.mem_cons_self) with ⟨y, hy⟩ | hx'
    · cases hx.symm.trans hy
    · rw [Except.error.inj (hx.symm.trans hx')]

/-- Lists whose elements read alike, one by one, read alike. -/
theorem mapM_congr {m : Type → Type} [Monad m] [LawfulMonad m] {α β : Type} {read : α → m β}
    {xs ys : List α} (h : List.Forall₂ (fun x y => read y = read x) xs ys) :
    ys.mapM read = xs.mapM read := by
  induction h with
  | nil => rfl
  | cons hxy _ ih => rw [List.mapM_cons, List.mapM_cons, hxy, ih]

theorem foldlM_congr {m : Type → Type} [Monad m] {α β : Type} {step : β → α → m β}
    {xs ys : List α} (h : List.Forall₂ (fun x y => ∀ b, step b y = step b x) xs ys) (b : β) :
    ys.foldlM step b = xs.foldlM step b := by
  induction h generalizing b with
  | nil => rfl
  | cons hxy _ ih =>
    rw [List.foldlM_cons, List.foldlM_cons, hxy b]
    exact congrArg _ (funext ih)

/-- Relations that agree on the elements of a list agree on lists. -/
theorem forall₂_congr_of_mem {α β : Type} {R S : α → β → Prop} {xs : List α} {ys : List β}
    (h : ∀ x ∈ xs, ∀ y, R x y ↔ S x y) : List.Forall₂ R xs ys ↔ List.Forall₂ S xs ys := by
  induction xs generalizing ys with
  | nil => rw [List.forall₂_nil_left_iff, List.forall₂_nil_left_iff]
  | cons x rest ih =>
    obtain ⟨hx, hrest⟩ := List.forall_mem_cons.mp h
    rw [List.forall₂_cons_left_iff, List.forall₂_cons_left_iff]
    simp only [hx, ih hrest]

/-- A list stays as it is exactly if every element does. -/
theorem map_eq_self_iff {α : Type} {f : α → α} {xs : List α} :
    xs.map f = xs ↔ ∀ x ∈ xs, f x = x := by
  have hsame : xs.map f = xs.map id ↔ ∀ x ∈ xs, f x = id x := List.map_inj_left
  rwa [List.map_id] at hsame

end ProfileMigration
