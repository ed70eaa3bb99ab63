/-
  ProfileMigration.Proofs.Field.Order

  The order of names in field trees:

    FieldMap.Ordered.insert / set   -- writing keeps it at every level
    Field.ordered_items_iff         -- items are ordered if each of them is
-/
import ProfileMigration.Field.Path
import ProfileMigration.Proofs.Text.KeyedOrder

namespace ProfileMigration

namespace Field

theorem allOrdered_iff {m : FieldMap} : AllOrdered m ↔ ∀ e ∈ m, e.2.Ordered := by
  induction m with
  | nil => exact iff_of_true trivial (List.forall_mem_nil _)
  | cons entry rest ih => rw [AllOrdered, ih, List.forall_mem_cons]

theorem ordered_value (v : TypedValue) : (value v).Ordered := trivial

theorem ordered_group_iff {m : FieldMap} : (group m).Ordered ↔ FieldMap.Ordered m := by
  rw [Ordered, FieldMap.Ordered]

theorem ordered_items_iff {rows : List FieldMap} :
    (items rows).Ordered ↔ ∀ row ∈ rows, FieldMap.Ordered row := by
  rw [Ordered]
  induction rows with
  | nil => exact iff_of_true trivial (List.forall_mem_nil _)
  | cons row rest ih =>
    rw [RowsOrdered, ih, List.forall_mem_cons]
    rfl

end Field

namespace FieldMap

theorem ordered_nil : FieldMap.Ordered [] := ⟨List.Pairwise.nil, trivial⟩

variable {m : FieldMap} {f : Field}

theorem Ordered.insert (h : m.Ordered) (hf : f.Ordered) (key : String) :
    FieldMap.Ordered (Keyed.insert key f m) := by
  refine ⟨Keyed.ordered_insert h.1 key f, Field.allOrdered_iff.mpr fun e he => ?_⟩
  rcases Keyed.mem_insert he with rfl | he
  · exact hf
  · exact Field.allOrdered_iff.mp h.2 e he

theorem ordered_singleton (name : String) (hf : f.Ordered) : FieldMap.Ordered [(name, f)] :=
  ordered_nil.insert hf name

theorem Ordered.get? (h : m.Ordered) {key : String} (hf : Keyed.get? key m = some f) :
    f.Ordered := by
  have hall := Field.allOrdered_iff.mp h.2
  clear h
  induction m with
  | nil => cases hf
  | cons entry rest ih =>
    obtain ⟨hentry, hrest⟩ := List.forall_mem_cons.mp hall
    rw [Keyed.get?] at hf
    split at hf
    · rwa [← Option.some.inj hf]
    · exact ih hf hrest

theorem Ordered.setAt (h : m.Ordered) (hf : f.Ordered) (segs : List String) :
    (m.setAt segs f).Ordered := by
  induction segs generalizing m with
  | nil => exact h
  | cons s rest ih =>
    cases rest with
    | nil => exact h.insert hf s
    | cons s' more =>
      refine h.insert (Field.ordered_group_iff.mpr (ih ?_)) s
      split
      · rename_i fields hfields
        exact Field.ordered_group_iff.mp (h.get? hfields)
      · exact ordered_nil

theorem Ordered.set (h : m.Ordered) (hf : f.Ordered) (path : String) : (m.set path f).Ordered :=
  h.setAt hf (Path.segments path)

end FieldMap

end ProfileMigration
