/-
  ProfileMigration.Proofs.Template.Assembling

  What assembled field trees hold under their names:

    Yields.mapM_forall₂         -- rows are made in order, one of each item
    Yields.mapM_each, foldlM_each -- what holds of every item of which something is made
    get?_assemble_cons          -- a value stays where it was written
    items_withItems             -- rows are read back
    withItems_assemble          -- rows beside values that refer to nothing
-/
import Mathlib.Data.List.Forall2
import ProfileMigration.Proofs.Field.Naming
import ProfileMigration.Proofs.Template.Reading

namespace ProfileMigration

/-! ## Rows of items -/

theorem Yields.mapM_forall₂ {α β : Type} {R : α → β → Prop} {f : α → Converted β} {l : List α}
    (h : ∀ a ∈ l, Yields (R a) (f a)) : Yields (fun bs => List.Forall₂ R l bs) (l.mapM f) := by
  induction l with
  | nil =>
    rw [List.mapM_nil]
    exact .pure .nil
  | cons a rest ih =>
    obtain ⟨ha, hrest⟩ := List.forall_mem_cons.mp h
    rw [List.mapM_cons]
    exact ha.bind fun b hb => (ih hrest).bind fun bs hbs => .pure (.cons hb hbs)

theorem forall_mem_of_forall₂ {α β : Type} {R : α → β → Prop} {Q : β → Prop} {xs : List α}
    {ys : List β} (h : List.Forall₂ R xs ys) (hR : ∀ x y, R x y → Q y) : ∀ y ∈ ys, Q y := by
  induction h with
  | nil => exact List.forall_mem_nil _
  | cons hxy _ ih => exact List.forall_mem_cons.mpr ⟨hR _ _ hxy, ih⟩

theorem forall_mem_right_of_forall₂ {α β : Type} {R : α → β → Prop} {P : α → Prop} {Q : β → Prop}
    {xs : List α} {ys : List β} (h : List.Forall₂ R xs ys) (hxs : ∀ x ∈ xs, P x)
    (hR : ∀ x y, R x y → P x → Q y) : ∀ y ∈ ys, Q y := by
  induction h with
  | nil => exact List.forall_mem_nil _
  | cons hxy _ ih =>
    obtain ⟨hx, hrest⟩ := List.forall_mem_cons.mp hxs
    exact List.forall_mem_cons.mpr ⟨hR _ _ hxy hx, ih hrest⟩

/-- What holds of everything that is made something of. -/
theorem Yields.mapM_each {α β : Type} {P : α → Prop} {f : α → Converted β} {l : List α}
    (h : ∀ a ∈ l, Yields (fun _ => P a) (f a)) : Yields (fun _ => ∀ a ∈ l, P a) (l.mapM f) :=
  (mapM_forall₂ h).mono fun _ hmade => forall_mem_of_forall₂ hmade.flip fun _ _ ha => ha

/-- The same for what is added one after the other. -/
theorem Yields.foldlM_each {α β : Type} {P : α → Prop} {f : β → α → Converted β} {l : List α}
    (h : ∀ a ∈ l, ∀ b, Yields (fun _ => P a) (f b a)) (b : β) :
    Yields (fun _ => ∀ a ∈ l, P a) (l.foldlM f b) := by
  induction l generalizing b with
  | nil => exact fun _ _ => List.forall_mem_nil _
  | cons a rest ih =>
    obtain ⟨ha, hrest⟩ := List.forall_mem_cons.mp h
    rw [List.foldlM_cons]
    exact (ha b).bind fun next hP =>
      (ih hrest next).mono fun _ hall => List.forall_mem_cons.mpr ⟨hP, hall⟩

theorem exists_mem_iff_of_forall₂ {α β : Type} {R : α → β → Prop} {P : α → Prop} {Q : β → Prop}
    {xs : List α} {ys : List β} (h : List.Forall₂ R xs ys) (hR : ∀ x y, R x y → (P x ↔ Q y)) :
    (∃ x ∈ xs, P x) ↔ ∃ y ∈ ys, Q y := by
  induction h with
  | nil => simp
  | cons hxy _ ih =>
    simp only [List.mem_cons, exists_eq_or_imp]
    rw [hR _ _ hxy, ih]

namespace Template

variable {data : FieldMap}

/-! ## Assembled field trees -/

/-- What is written below other names leaves a name as it was. -/
theorem get?_assemble_append {key : String} {first rest : List (String × Option TypedValue)}
    (h : ∀ path ∈ rest.map Prod.fst, (Path.segments path).head? ≠ some key) :
    Keyed.get? key (assemble (first ++ rest)) = Keyed.get? key (assemble first) := by
  rw [assemble, List.foldl_append]
  refine List.foldlRecOn (motive := fun data => Keyed.get? key data = Keyed.get? key
    (assemble first)) rest _ rfl ?_
  rintro data hdata ⟨path, v?⟩ hentry
  cases v? with
  | none => exact hdata
  | some v =>
    have hhead := h path (List.mem_map.mpr ⟨_, hentry, rfl⟩)
    exact (FieldMap.get?_set_of_head_ne hhead).trans hdata

theorem get?_assemble_of_head_ne {key : String} {entries : List (String × Option TypedValue)}
    (h : ∀ path ∈ entries.map Prod.fst, (Path.segments path).head? ≠ some key) :
    Keyed.get? key (assemble entries) = none := by
  rw [← List.nil_append entries, get?_assemble_append h]
  rfl

/-- The first of several values stays where it was written. -/
theorem get?_assemble_cons {key : String} {v : TypedValue}
    {rest : List (String × Option TypedValue)} (hkey : Path.Single key)
    (h : ∀ path ∈ rest.map Prod.fst, (Path.segments path).head? ≠ some key) :
    Keyed.get? key (assemble ((key, some v) :: rest)) = some (.value v) := by
  rw [← List.singleton_append, get?_assemble_append h]
  show Keyed.get? key (FieldMap.set [] key (.value v)) = _
  rw [FieldMap.set_of_single hkey, Keyed.get?_insert_self]

theorem withItems_nil (data : FieldMap) (name : String) : withItems data name [] = data := rfl

theorem withItems_cons (data : FieldMap) (name : String) (row : FieldMap) (rest : List FieldMap) :
    withItems data name (row :: rest) = Keyed.insert name (.items (row :: rest)) data := rfl

theorem get?_withItems_of_ne {key name : String} (h : key ≠ name) (rows : List FieldMap) :
    Keyed.get? key (withItems data name rows) = Keyed.get? key data := by
  cases rows with
  | nil => rw [withItems_nil]
  | cons row rest => rw [withItems_cons, Keyed.get?_insert_of_ne h]

theorem field?_withItems_of_ne {key name : String} (hkey : Path.Single key) (h : key ≠ name)
    (rows : List FieldMap) : (withItems data name rows).field? key = data.field? key := by
  rw [FieldMap.field?_of_single hkey, get?_withItems_of_ne h, FieldMap.field?_of_single hkey]

theorem items_withItems {name : String} (hname : Path.Single name)
    (hfree : Keyed.get? name data = none) (rows : List FieldMap) :
    (withItems data name rows).items name = rows := by
  rw [FieldMap.items, FieldMap.field?_of_single hname]
  cases rows with
  | nil => rw [withItems_nil, hfree]
  | cons row rest => rw [withItems_cons, Keyed.get?_insert_self]

theorem mem_objectIds_withItems {name : String} (hfree : Keyed.get? name data = none)
    (rows : List FieldMap) (id : Uuid) :
    id ∈ (withItems data name rows).objectIds ↔
      (∃ row ∈ rows, id ∈ FieldMap.objectIds row) ∨ id ∈ data.objectIds := by
  cases rows with
  | nil =>
    rw [withItems_nil]
    simp
  | cons row rest =>
    rw [withItems_cons, FieldMap.mem_objectIds_insert hfree, Field.mem_objectIds_items]

/-- Rows beside values without references: they are read back, and they refer to all there is. -/
theorem withItems_assemble {entries : List (String × Option TypedValue)} {name : String}
    (hname : Path.Single name) (hvalues : ∀ e ∈ entries, Given (fun _ => False) e.2)
    (hheads : ∀ path ∈ entries.map Prod.fst, (Path.segments path).head? ≠ some name)
    (rows : List FieldMap) :
    (withItems (assemble entries) name rows).items name = rows ∧
    ∀ id, id ∈ (withItems (assemble entries) name rows).objectIds ↔
      ∃ row ∈ rows, id ∈ FieldMap.objectIds row := by
  have hfree := get?_assemble_of_head_ne hheads
  have hdata := refersOnly_assemble hvalues
  refine ⟨items_withItems hname hfree rows, fun id => ?_⟩
  rw [mem_objectIds_withItems hfree, or_iff_left (hdata id)]

end Template

end ProfileMigration
