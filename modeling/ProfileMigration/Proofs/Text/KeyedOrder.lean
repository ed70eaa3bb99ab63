/-
  ProfileMigration.Proofs.Text.KeyedOrder

  The order of keyed lists:

    Keyed.ordered_insert        -- inserting keeps it
    Keyed.insert_eq_append      -- what has the largest key comes last
-/
import ProfileMigration.Text.Keyed

namespace ProfileMigration.Keyed

variable {α : Type} {key : String} {value : α} {entries : List (String × α)}

theorem ordered_cons_iff {entry : String × α} :
    Ordered (entry :: entries) ↔ (∀ e ∈ entries, entry.1 < e.1) ∧ Ordered entries := by
  rw [Ordered, List.map_cons, List.pairwise_cons, List.forall_mem_map]
  rfl

theorem mem_insert {e : String × α} (h : e ∈ insert key value entries) :
    e = (key, value) ∨ e ∈ entries := by
  induction entries with
  | nil => exact .inl (List.mem_singleton.mp h)
  | cons entry rest ih =>
    rw [insert] at h
    split at h
    · exact List.mem_cons.mp h
    · split at h
      · exact (List.mem_cons.mp h).imp_right (List.mem_cons_of_mem _)
      · rcases List.mem_cons.mp h with rfl | h
        · exact .inr List.mem_cons_self
        · exact (ih h).imp_right (List.mem_cons_of_mem _)

theorem ordered_insert (h : Ordered entries) (key : String) (value : α) :
    Ordered (insert key value entries) := by
  induction entries with
  | nil => exact ordered_cons_iff.mpr ⟨List.forall_mem_nil _, h⟩
  | cons entry rest ih =>
    obtain ⟨hfirst, hrest⟩ := ordered_cons_iff.mp h
    rw [insert]
    split
    · rename_i hlt
      refine ordered_cons_iff.mpr ⟨List.forall_mem_cons.mpr ⟨hlt, fun e he => ?_⟩, h⟩
      exact String.lt_trans hlt (hfirst e he)
    · split
      · rename_i heq
        exact ordered_cons_iff.mpr ⟨fun e he => heq ▸ hfirst e he, hrest⟩
      · rename_i hnot hne
        refine ordered_cons_iff.mpr ⟨fun e he => ?_, ih hrest⟩
        rcases mem_insert he with rfl | he
        · refine Decidable.byContradiction fun hnot' => hne ?_
          exact String.le_antisymm (String.not_lt.mp hnot') (String.not_lt.mp hnot)
        · exact hfirst e he

/-- What has a larger key than everything else comes last. -/
theorem insert_eq_append (h : ∀ e ∈ entries, e.1 < key) (value : α) :
    insert key value entries = entries ++ [(key, value)] := by
  induction entries with
  | nil => rfl
  | cons entry rest ih =>
    obtain ⟨hentry, hrest⟩ := List.forall_mem_cons.mp h
    have hne : key ≠ entry.1 := fun heq => String.lt_irrefl key (heq ▸ hentry)
    rw [insert, if_neg (String.lt_asymm hentry), if_neg hne, ih hrest, List.cons_append]

end ProfileMigration.Keyed
