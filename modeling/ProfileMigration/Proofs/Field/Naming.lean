/-
  ProfileMigration.Proofs.Field.Naming

  Reading and writing field trees under names, that is under paths of one segment:

    Path.Single                     -- a path that is one segment
    Field.rows                      -- the items that a field is read as
    FieldMap.field?_of_single       -- reading it is looking up a key
    FieldMap.set_of_single          -- writing it is inserting under a key
    FieldMap.group?_set             -- writing below a name is inserting in the group there
    FieldMap.get?_set_of_head_ne    -- writing below another name leaves a name as it was
    FieldMap.mem_objectIds_insert   -- a field under a new name adds what it refers to
-/
import ProfileMigration.Proofs.Field.ReferenceBounds
import ProfileMigration.Proofs.Identity.UuidText

namespace ProfileMigration

/-- A path of one segment. -/
def Path.Single (path : String) : Prop := segments path = [path]

instance (path : String) : Decidable (Path.Single path) :=
  inferInstanceAs (Decidable (Path.segments path = [path]))

/-- The items of a field; a group counts as one. -/
def Field.rows : Field → List FieldMap
  | .value _ => []
  | .group fields => [fields]
  | .items rows => rows

namespace FieldMap

variable {m : FieldMap} {f : Field}

theorem items_eq (m : FieldMap) (path : String) :
    m.items path = ((m.field? path).map Field.rows).getD [] := by
  rw [items]
  rcases m.field? path with _ | ⟨_ | _ | _⟩
  all_goals rfl

theorem field?_of_single {path : String} (h : Path.Single path) :
    m.field? path = Keyed.get? path m := by
  have hjoined : Path.joined [path] = path := String.intercalate_singleton
  rw [field?, h, fieldAt?, hjoined]
  cases Keyed.get? path m with
  | some g => rfl
  | none => rfl

theorem value?_of_get? {key : String} {v : TypedValue} (hkey : Path.Single key)
    (h : Keyed.get? key m = some (.value v)) : m.value? key = some v := by
  rw [value?, field?_of_single hkey, h]
  rfl

theorem items_insert_self {name : String} (h : Path.Single name) (rows : List FieldMap) :
    FieldMap.items (Keyed.insert name (.items rows) m) name = rows := by
  rw [items, field?_of_single h, Keyed.get?_insert_self]

theorem set_of_single {path : String} (h : Path.Single path) :
    m.set path f = Keyed.insert path f m := by
  rw [set, h, setAt]

/-- Where nothing is configured under a name, the name is free. -/
theorem get?_of_has_eq_false {path : String} (h : Path.Single path) (hfree : m.has path = false) :
    Keyed.get? path m = none := by
  rw [has, Bool.or_eq_false_iff] at hfree
  rw [← field?_of_single h]
  exact Option.not_isSome_iff_eq_none.mp (Bool.eq_false_iff.mp hfree.1)

theorem get?_set_of_head_ne {key path : String} (h : (Path.segments path).head? ≠ some key) :
    Keyed.get? key (m.set path f) = Keyed.get? key m := by
  rw [set]
  cases hsegs : Path.segments path with
  | nil => rfl
  | cons s rest =>
    rw [hsegs] at h
    have hne : key ≠ s := fun heq => h (by rw [heq]; rfl)
    -- Whether the path goes on or not, what is written is under its first segment
    cases rest with
    | nil => exact Keyed.get?_insert_of_ne hne f m
    | cons t more => exact Keyed.get?_insert_of_ne hne _ m

/-- What is written below a name goes into the group there; a missing group counts as empty. -/
theorem group?_set {path group name : String} (hpath : Path.segments path = [group, name])
    (hgroup : Path.Single group) :
    ((m.set path f).group? group).getD [] = Keyed.insert name f ((m.group? group).getD []) := by
  rw [group?, group?, field?_of_single hgroup, field?_of_single hgroup, set, hpath]
  simp only [setAt, Keyed.get?_insert_self]
  -- Nothing, a value and items all count as the empty group
  rcases Keyed.get? group m with _ | ⟨_ | _ | _⟩
  all_goals rfl

theorem mem_objectIds_cons {k : String} {id : Uuid} :
    id ∈ FieldMap.objectIds ((k, f) :: m) ↔ id ∈ f.objectIds ∨ id ∈ m.objectIds := by
  rw [objectIds, Field.objectIdsOf, List.mem_append]
  rfl

/-- Under a name that was free, a field adds what it refers to. -/
theorem mem_objectIds_insert {key : String} (h : Keyed.get? key m = none) {id : Uuid} :
    id ∈ FieldMap.objectIds (Keyed.insert key f m) ↔ id ∈ f.objectIds ∨ id ∈ m.objectIds := by
  induction m with
  | nil => exact mem_objectIds_cons
  | cons entry rest ih =>
    obtain ⟨k, g⟩ := entry
    rw [Keyed.get?] at h
    split at h
    · cases h
    · rename_i hne
      rw [Keyed.insert]
      split
      · exact mem_objectIds_cons
      · rw [if_neg (Ne.symm hne), mem_objectIds_cons, ih h, mem_objectIds_cons]
        exact or_left_comm

end FieldMap

namespace Field

theorem mem_objectIds_items {rows : List FieldMap} {id : Uuid} :
    id ∈ (items rows).objectIds ↔ ∃ row ∈ rows, id ∈ FieldMap.objectIds row := by
  rw [objectIds]
  induction rows with
  | nil => simp [objectIdsOfRows]
  | cons row rest ih =>
    rw [objectIdsOfRows, List.mem_append, ih]
    simp only [List.mem_cons, exists_eq_or_imp]
    rfl

/-- A reference refers to one object. -/
theorem mem_objectIds_objectRef {id r : Uuid} : r ∈ (objectRef id).objectIds ↔ r = id := by
  have hown : (TypedValue.object id).objectId? = some id := Uuid.ofText?_text id
  rw [objectRef, objectIds, objectIdsOf, objectIds, hown]
  simp [objectIdsOf]

end Field

end ProfileMigration
