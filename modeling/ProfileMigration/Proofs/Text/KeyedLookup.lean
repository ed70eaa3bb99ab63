/-
  ProfileMigration.Proofs.Text.KeyedLookup

  Looking up keys in lists of pairs:

    Keyed.mem_of_get?           -- what is found stands in the list
    Keyed.get?_eq_none_iff      -- nothing is found exactly for keys that are not there
    Keyed.get?_eq_some_iff_mem  -- where each key stands once, everything is found
    Keyed.get?_congr            -- so that lists with the same entries give the same
-/
import ProfileMigration.Text.Keyed

namespace ProfileMigration.Keyed

variable {α : Type} {key : String} {value : α} {entries : List (String × α)}

theorem get?_cons_self (key : String) (value : α) (entries : List (String × α)) :
    get? key ((key, value) :: entries) = some value := by
  rw [get?, if_pos rfl]

theorem get?_cons_of_ne {other : String} (h : other ≠ key) (value : α)
    (entries : List (String × α)) : get? key ((other, value) :: entries) = get? key entries := by
  rw [get?, if_neg h]

theorem mem_of_get? (h : get? key entries = some value) : (key, value) ∈ entries := by
  induction entries with
  | nil => cases h
  | cons entry rest ih =>
    obtain ⟨k, v⟩ := entry
    by_cases hk : k = key
    · subst hk
      rw [get?_cons_self] at h
      rw [Option.some.inj h]
      exact List.mem_cons_self
    · rw [get?_cons_of_ne hk] at h
      exact List.mem_cons_of_mem _ (ih h)

theorem get?_eq_none_iff : get? key entries = none ↔ ∀ e ∈ entries, e.1 ≠ key := by
  induction entries with
  | nil => exact iff_of_true rfl (List.forall_mem_nil _)
  | cons entry rest ih =>
    obtain ⟨k, v⟩ := entry
    rw [List.forall_mem_cons, ← ih, get?]
    split
    · rename_i hk
      exact iff_of_false (Option.some_ne_none _) fun h => h.1 hk
    · rename_i hk
      exact (and_iff_right hk).symm

/-- Where each key stands once, everything in the list is found. -/
theorem get?_eq_some_iff_mem (h : (entries.map Prod.fst).Nodup) :
    get? key entries = some value ↔ (key, value) ∈ entries := by
  refine ⟨mem_of_get?, fun hmem => ?_⟩
  induction entries with
  | nil => cases hmem
  | cons entry rest ih =>
    obtain ⟨k, v⟩ := entry
    rw [List.map_cons, List.nodup_cons] at h
    rcases List.mem_cons.mp hmem with heq | hmem
    · obtain ⟨rfl, rfl⟩ := Prod.mk.inj heq
      exact get?_cons_self key value rest
    · -- The key stands later, so it is not the first one
      have hk : k ≠ key := fun heq => h.1 (heq ▸ List.mem_map.mpr ⟨_, hmem, rfl⟩)
      rw [get?_cons_of_ne hk]
      exact ih h.2 hmem

theorem get?_congr {key' : String} {entries' : List (String × α)}
    (h : (entries.map Prod.fst).Nodup) (h' : (entries'.map Prod.fst).Nodup)
    (hmem : ∀ value, (key, value) ∈ entries ↔ (key', value) ∈ entries') :
    get? key entries = get? key' entries' :=
  Option.ext fun value => by
    rw [get?_eq_some_iff_mem h, get?_eq_some_iff_mem h', hmem value]

end ProfileMigration.Keyed
