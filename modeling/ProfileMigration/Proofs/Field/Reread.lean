/-
  ProfileMigration.Proofs.Field.Reread

  Field trees read back from their wire form:

    Field.reread / FieldMap.reread  -- the tree with every value as it reads back
    Field.ofMember?_toJson          -- no field is written as the tag of a value
    FieldMap.ofJson?_toJson         -- an ordered tree reads back as that tree
    FieldMap.bind_reread            -- which is bound and written as before if its values are stable

  Groups and items are never taken for values, whatever their names are: the tag of a value is a
  text, or an object with null in it, and no field is written as either.
-/
import ProfileMigration.Proofs.Field.Leaves
import ProfileMigration.Proofs.Field.Order
import ProfileMigration.Proofs.Value.Reread

namespace ProfileMigration

namespace Field

mutual

/-- A field with every value as it reads back. -/
def reread : Field → Field
  | .value v => .value v.reread
  | .group fields => .group (rereadOf fields)
  | .items rows => .items (rereadRows rows)

/-- Named fields with every value as it reads back. -/
def rereadOf : List (String × Field) → List (String × Field)
  | [] => []
  | (k, f) :: rest => (k, reread f) :: rereadOf rest

/-- Items with every value as it reads back. -/
def rereadRows : List (List (String × Field)) → List (List (String × Field))
  | [] => []
  | row :: rest => rereadOf row :: rereadRows rest

end

end Field

/-- A field tree with every value as it reads back. -/
def FieldMap.reread (m : FieldMap) : FieldMap := Field.rereadOf m

namespace Field

/-! ## Kinds of fields -/

theorem toJson_ne_null (f : Field) : f.toJson ≠ .null := by
  cases f with
  | value v => cases v <;> exact fun h => nomatch h
  | group fields => exact fun h => nomatch h
  | items rows => exact fun h => nomatch h

theorem membersOf_eq_map (fields : List (String × Field)) :
    membersOf fields = fields.map fun e => (e.1, e.2.toJson) := by
  induction fields with
  | nil => rfl
  | cons entry rest ih => rw [membersOf, ih, List.map_cons]

/-- No field is written as the tag of a value. -/
theorem ofMember?_toJson (f : Field) : TypedValue.Tag.ofMember? f.toJson = none := by
  cases f with
  | value v => cases v <;> rfl
  | items rows => rfl
  | group fields =>
    rw [toJson, membersOf_eq_map, TypedValue.Tag.ofMember?]
    · exact fun s h => nomatch h
    · intro key h
      have hmembers := Json.obj.inj h
      obtain ⟨⟨k, f⟩, rest, -, hentry, -⟩ := List.map_eq_cons_iff.mp hmembers
      exact toJson_ne_null f (Prod.mk.inj hentry).2

theorem exists_of_mem_valuesOf {key : String} {fields : List (String × Field)} {j : Json}
    (h : j ∈ TypedValue.valuesOf key (membersOf fields)) : ∃ f : Field, j = f.toJson := by
  obtain ⟨entry, hentry, rfl⟩ := List.mem_map.mp h
  have hmem := (List.mem_filter.mp hentry).1
  rw [membersOf_eq_map] at hmem
  obtain ⟨⟨k, f⟩, -, rfl⟩ := List.mem_map.mp hmem
  exact ⟨f, rfl⟩

/-- A group is not taken for a value. -/
theorem ofJsonWith?_membersOf (numbered : Bool) (fields : List (String × Field)) :
    TypedValue.ofJsonWith? numbered (.obj (membersOf fields)) = none := by
  have hnone : ∀ {tag : Json} {rest : List Json} (content : Option Json),
      TypedValue.valuesOf "optionType" (membersOf fields) = tag :: rest →
        (TypedValue.Tag.ofMember? tag).bind (TypedValue.ofContent? · content) = none := by
    intro tag rest content htag
    obtain ⟨f, rfl⟩ := exists_of_mem_valuesOf (htag ▸ List.mem_cons_self)
    rw [ofMember?_toJson, Option.bind_none]
  rw [TypedValue.ofJsonWith?]
  split
  · rename_i tag htag _
    exact hnone none htag
  · rename_i tag content htag _
    exact hnone (some content) htag
  · rfl

/-- Items are not taken for a value. -/
theorem ofJsonWith?_elementsOf (numbered : Bool) (rows : List (List (String × Field))) :
    TypedValue.ofJsonWith? numbered (.arr (elementsOf rows)) = none := by
  match rows with
  | [] => rfl
  | [_] => rfl
  | [_, _] => rfl
  | _ :: _ :: _ :: _ => rfl

/-! ## Reading back -/

mutual

/-- An ordered field reads back from its wire form. -/
theorem ofJson?_toJson : {f : Field} → f.Ordered → ofJson? f.toJson = some f.reread
  | .value v, _ => by
    rw [toJson, ofJson?.eq_def, TypedValue.ofJsonWith?_toJson, reread]
  | .group fields, h => by
    rw [Ordered] at h
    rw [toJson, ofJson?.eq_def, ofJsonWith?_membersOf]
    dsimp only
    rw [fieldsOnto_membersOf [] h.1 h.2 (List.forall_mem_nil _), reread]
    rfl
  | .items rows, h => by
    rw [Ordered] at h
    rw [toJson, ofJson?.eq_def, ofJsonWith?_elementsOf]
    dsimp only
    rw [rowsOf_elementsOf h, reread]
    rfl

/-- Ordered fields read back behind what is there already, if their names come after it. -/
theorem fieldsOnto_membersOf : {fields : List (String × Field)} → (acc : FieldMap) →
    Keyed.Ordered fields → AllOrdered fields → (∀ e ∈ acc, ∀ e' ∈ fields, e.1 < e'.1) →
    fieldsOnto acc (membersOf fields) = some (acc ++ rereadOf fields)
  | [], acc, _, _, _ => by rw [membersOf, fieldsOnto, rereadOf, List.append_nil]
  | (k, f) :: rest, acc, hkeys, hall, hacc => by
    obtain ⟨hfirst, hrest⟩ := Keyed.ordered_cons_iff.mp hkeys
    rw [AllOrdered] at hall
    have hlast : ∀ e ∈ acc, e.1 < k := fun e he => hacc e he (k, f) List.mem_cons_self
    rw [membersOf, fieldsOnto, ofJson?_toJson hall.1]
    dsimp only
    rw [Keyed.insert_eq_append hlast, fieldsOnto_membersOf _ hrest hall.2, rereadOf,
      List.append_assoc, List.singleton_append]
    refine List.forall_mem_append.mpr ⟨fun e he e' he' => ?_, ?_⟩
    · exact hacc e he e' (List.mem_cons_of_mem _ he')
    · exact List.forall_mem_singleton.mpr hfirst

/-- Ordered items read back. -/
theorem rowsOf_elementsOf : {rows : List (List (String × Field))} → RowsOrdered rows →
    rowsOf (elementsOf rows) = some (rereadRows rows)
  | [], _ => rfl
  | row :: rest, h => by
    rw [RowsOrdered] at h
    rw [elementsOf, rowsOf, fieldsOnto_membersOf [] h.1.1 h.1.2 (List.forall_mem_nil _),
      rowsOf_elementsOf h.2, rereadRows]
    rfl

end

/-! ## Binding -/

variable {ids : RemoteIds}

/-- Named fields are bound and written one after the other. -/
theorem map_membersOf_bindFields (ids : RemoteIds) (k : String) (f : Field)
    (rest : List (String × Field)) :
    (bindFields ids ((k, f) :: rest)).map membersOf =
      ((f.bind ids).map toJson).bind fun j =>
        ((bindFields ids rest).map membersOf).map ((k, j) :: ·) := by
  rw [bindFields]
  cases f.bind ids with
  | error id => rfl
  | ok g => cases bindFields ids rest <;> rfl

/-- So are items. -/
theorem map_elementsOf_bindRows (ids : RemoteIds) (row : List (String × Field))
    (rest : List (List (String × Field))) :
    (bindRows ids (row :: rest)).map elementsOf =
      ((bindFields ids row).map membersOf).bind fun members =>
        ((bindRows ids rest).map elementsOf).map (.obj members :: ·) := by
  rw [bindRows]
  cases bindFields ids row with
  | error id => rfl
  | ok bound => cases bindRows ids rest <;> rfl

mutual

/-- A field with stable values is bound and written as before when it has been read back. -/
theorem bind_reread : {f : Field} → (∀ v ∈ f.leaves, v.isStable = true) →
    (f.reread.bind ids).map toJson = (f.bind ids).map toJson
  | .value v, h => by
    rw [reread, bind, TypedValue.objectId?_reread, bind]
    cases v.objectId? with
    | some id => rfl
    | none =>
      have hv := TypedValue.toJson_reread (h v List.mem_cons_self)
      rw [Except.map, toJson, hv, Except.map, toJson]
  | .group fields, h => by
    have hwritten : ∀ x : Except Uuid (List (String × Field)),
        (x.map group).map toJson = (x.map membersOf).map .obj := by
      intro x
      cases x <;> rfl
    rw [reread, bind, hwritten, bindFields_reread h, ← hwritten, bind]
  | .items rows, h => by
    have hwritten : ∀ x : Except Uuid (List (List (String × Field))),
        (x.map items).map toJson = (x.map elementsOf).map .arr := by
      intro x
      cases x <;> rfl
    rw [reread, bind, hwritten, bindRows_reread h, ← hwritten, bind]

/-- So are named fields. -/
theorem bindFields_reread : {fields : List (String × Field)} →
    (∀ v ∈ leavesOf fields, v.isStable = true) →
    (bindFields ids (rereadOf fields)).map membersOf = (bindFields ids fields).map membersOf
  | [], _ => rfl
  | (k, f) :: rest, h => by
    obtain ⟨hf, hrest⟩ := List.forall_mem_append.mp h
    rw [rereadOf, map_membersOf_bindFields, bind_reread hf, bindFields_reread hrest,
      ← map_membersOf_bindFields]

/-- So are items. -/
theorem bindRows_reread : {rows : List (List (String × Field))} →
    (∀ v ∈ leavesOfRows rows, v.isStable = true) →
    (bindRows ids (rereadRows rows)).map elementsOf = (bindRows ids rows).map elementsOf
  | [], _ => rfl
  | row :: rest, h => by
    obtain ⟨hrow, hrest⟩ := List.forall_mem_append.mp h
    rw [rereadRows, map_elementsOf_bindRows, bindFields_reread hrow, bindRows_reread hrest,
      ← map_elementsOf_bindRows]

end

end Field

namespace FieldMap

/-- Every value in a field tree is stable. -/
def isStable (m : FieldMap) : Bool := m.leaves.all TypedValue.isStable

/-- An ordered field tree reads back from its wire form. -/
theorem ofJson?_toJson {m : FieldMap} (h : m.Ordered) : ofJson? m.toJson = some m.reread :=
  Field.fieldsOnto_membersOf [] h.1 h.2 (List.forall_mem_nil _)

/-- A field tree of stable values is bound and written as before when it has been read back. -/
theorem bind_reread {m : FieldMap} (h : m.isStable = true) (ids : RemoteIds) :
    (m.reread.bind ids).map toJson = (m.bind ids).map toJson := by
  have hwritten : ∀ x : Except Uuid FieldMap,
      x.map toJson = (x.map Field.membersOf).map .obj := by
    intro x
    cases x <;> rfl
  have hvalues := List.all_eq_true.mp h
  rw [hwritten, hwritten]
  exact congrArg (Except.map Json.obj) (Field.bindFields_reread hvalues)

end FieldMap

end ProfileMigration
