/-
  ProfileMigration.Proofs.Wire.Fields

  What a record says that reads:

    Json.IsRecord       -- an object, or a list of so many elements at most
    Json.fieldValues    -- what it has for a field, by key or by index
    Json.IsText?        -- what it has for a text that may be absent
    Wire.read_record_iff / Wire.Gathered.map_iff / Wire.Gathered.seq_iff
                        -- a record reads exactly if its fields do
    Wire.Row.field_iff / required_iff
                        -- and a field exactly if its one value does, or it may be absent
    Wire.Row.required_text_iff / optional_text_iff
    Wire.read_list_iff  -- a list reads exactly if its elements do
    Wire.depth_lt_of_mem_fieldValues / depth_lt_of_mem_list
                        -- what a record has for a field nests less deep

  Readers also say which fault they met first. What they accept is said here without them.
-/
import ProfileMigration.Proofs.Sequence.Traverse
import ProfileMigration.Proofs.Wire.Record

namespace ProfileMigration

namespace Json

/-- A value can be a record of so many fields: it is an object, or a list that is not longer. -/
def IsRecord (arity : Nat) : Json → Prop
  | obj _ => True
  | arr elements => elements.length ≤ arity
  | null | bool _ | num _ | str _ => False

/-- What a record has for a field: the members with its key, or the element at its index. -/
def fieldValues (index : Nat) (key : String) : Json → List Json
  | obj members => (members.filter (·.1 = key)).map Prod.snd
  | arr elements => elements[index]?.toList
  | null | bool _ | num _ | str _ => []

/-- The values of a field make a text that may be absent or null. -/
def IsText? (values : List Json) : Option String → Prop
  | some text => values = [.str text]
  | none => values = [] ∨ values = [.null]

end Json

namespace Wire

variable {α β : Type} {j : Json} {key title : String} {arity index : Nat}

/-! ## Fields -/

/-- The row of a record, an object or a list. -/
def Row.ofJson (title : String) (arity : Nat) : Json → Row
  | .obj members => .ofMembers title arity members
  | .arr elements => ⟨title, arity, .inr (Document.ofElements elements)⟩
  | .null | .bool _ | .num _ | .str _ => ⟨title, arity, .inl []⟩

namespace Row

/-- A field is found as what the record has for it. -/
theorem map_found_ofJson (title : String) (arity index : Nat) (key : String) (j : Json) :
    ((ofJson title arity j).found index key).map Prod.fst =
      (j.fieldValues index key).map Document.ofJson := by
  cases j with
  | obj members => exact map_found title arity index key members
  | arr elements =>
    simp only [ofJson, found, Json.fieldValues, Document.ofElements_eq_map, List.getElem?_map]
    cases elements[index]? <;> rfl
  | null | bool _ | num _ | str _ => rfl

variable {reader : Reader α} {missing : Gathered α} {a : α}

/-- A field reads as its only value does, or as what stands for it where it is absent. -/
theorem field_iff :
    (ofJson title arity j).field index key reader missing = .ok a ↔
      (j.fieldValues index key = [] ∧ missing = .ok a) ∨
        ∃ value, j.fieldValues index key = [value] ∧ read reader value = .ok a := by
  have hfound := map_found_ofJson title arity index key j
  rw [field]
  cases hvalues : j.fieldValues index key with
  | nil =>
    rw [hvalues] at hfound
    rw [List.map_eq_nil_iff.mp hfound]
    simp
  | cons value more =>
    rw [hvalues] at hfound
    obtain ⟨⟨d, place⟩, rest, hcons, rfl, hrest⟩ := List.map_eq_cons_iff.mp hfound
    rw [hcons]
    cases more with
    | nil =>
      obtain rfl := List.map_eq_nil_iff.mp hrest
      dsimp only
      cases hvalue : reader (.ofJson value) with
      | ok b =>
        constructor
        · intro h
          exact .inr ⟨value, rfl, hvalue.trans (congrArg Except.ok (Except.ok.inj h))⟩
        · rintro (⟨⟨⟩, -⟩ | ⟨_, ⟨⟩, h⟩)
          exact congrArg Except.ok (Except.ok.inj (hvalue.symm.trans h))
      | error m =>
        constructor
        · intro h
          cases h
        · rintro (⟨⟨⟩, -⟩ | ⟨_, ⟨⟩, h⟩)
          cases hvalue.symm.trans h
    | cons _ _ =>
      -- A key that is repeated is a fault, whatever its values are
      obtain ⟨_, _, rfl, -, -⟩ := List.map_eq_cons_iff.mp hrest
      simp

theorem required_iff :
    (ofJson title arity j).required index key reader = .ok a ↔
      ∃ value, j.fieldValues index key = [value] ∧ read reader value = .ok a := by
  refine field_iff.trans ⟨?_, .inr⟩
  rintro (⟨-, ⟨⟩⟩ | h)
  exact h

theorem read_text_iff {text : String} : read Wire.text j = .ok text ↔ j = .str text := by
  cases j <;> simp [read, Document.ofJson, Wire.text]

theorem read_nullable_text_iff {text? : Option String} :
    read (nullable Wire.text) j = .ok text? ↔ Json.IsText? [j] text? := by
  cases j <;> cases text? <;>
    simp [read, Document.ofJson, nullable, Wire.text, Except.map, Json.IsText?]

/-- A text that must be there is the only value of its field. -/
theorem required_text_iff {text : String} :
    (ofJson title arity j).required index key Wire.text = .ok text ↔
      j.fieldValues index key = [.str text] := by
  refine required_iff.trans ?_
  simp [read_text_iff]

/-- A text that may be absent is the only value of its field, where it has one. -/
theorem optional_text_iff {text? : Option String} :
    (ofJson title arity j).optional index key Wire.text = .ok text? ↔
      Json.IsText? (j.fieldValues index key) text? := by
  refine field_iff.trans ?_
  simp only [read_nullable_text_iff]
  constructor
  · rintro (⟨hnone, h⟩ | ⟨value, hvalue, h⟩)
    · obtain rfl := Except.ok.inj h
      exact .inl hnone
    · rwa [hvalue]
  · intro h
    cases text? with
    | some text => exact .inr ⟨_, h, rfl⟩
    | none =>
      rcases h with hnone | hnull
      · exact .inl ⟨hnone, rfl⟩
      · exact .inr ⟨_, hnull, .inr rfl⟩

end Row

/-! ## Records and lists -/

theorem Gathered.map_iff {f : α → β} {x : Gathered α} {b : β} :
    f <$> x = (.ok b : Gathered β) ↔ ∃ a, x = .ok a ∧ f a = b := by
  cases x with
  | ok a =>
    constructor
    · intro h
      exact ⟨a, rfl, Except.ok.inj h⟩
    · rintro ⟨_, ⟨⟩, rfl⟩
      rfl
  | error m =>
    constructor
    · intro h
      cases h
    · rintro ⟨_, ⟨⟩, -⟩

theorem Gathered.seq_iff {f : Gathered (α → β)} {x : Gathered α} {b : β} :
    f <*> x = (.ok b : Gathered β) ↔ ∃ g a, f = .ok g ∧ x = .ok a ∧ g a = b := by
  cases f with
  | ok g =>
    cases x with
    | ok a =>
      constructor
      · intro h
        exact ⟨g, a, rfl, rfl, Except.ok.inj h⟩
      · rintro ⟨_, _, ⟨⟩, ⟨⟩, rfl⟩
        rfl
    | error m =>
      constructor
      · intro h
        cases h
      · rintro ⟨_, _, -, ⟨⟩, -⟩
  | error m =>
    constructor
    · intro h
      cases x with
      | ok _ => cases h
      | error _ => cases h
    · rintro ⟨_, _, ⟨⟩, -⟩

/-- A record reads exactly if it can be one and its fields read. -/
theorem read_record_iff {fields : Row → Gathered α} {a : α} :
    read (record title arity fields) j = .ok a ↔
      j.IsRecord arity ∧ fields (.ofJson title arity j) = .ok a := by
  cases j with
  | obj members =>
    simp only [read, Document.ofJson, record, bind, Except.bind, Json.IsRecord, true_and]
    rw [Row.ofJson, Row.ofMembers]
    cases fields _ with
    | ok b =>
      exact ⟨fun h => congrArg _ (Except.ok.inj h), fun h => congrArg _ (Except.ok.inj h)⟩
    | error m =>
      constructor
      · intro h
        cases h
      · intro h
        cases h
  | arr elements =>
    simp only [read, Document.ofJson, record, bind, Except.bind, Json.IsRecord]
    rw [Row.ofJson]
    cases fields _ with
    | ok b =>
      simp only [Row.surplus, Document.ofElements_eq_map, List.length_map]
      by_cases hlong : arity < elements.length
      · rw [if_pos hlong]
        constructor
        · intro h
          cases h
        · exact fun h => absurd hlong (Nat.not_lt_of_le h.1)
      · rw [if_neg hlong]
        exact ⟨fun h => ⟨Nat.le_of_not_lt hlong, congrArg _ (Except.ok.inj h)⟩,
          fun h => congrArg _ (Except.ok.inj h.2)⟩
    | error m =>
      constructor
      · intro h
        cases h
      · rintro ⟨-, ⟨⟩⟩
  | null | bool _ | num _ | str _ =>
    constructor
    · intro h
      cases h
    · rintro ⟨⟨⟩, -⟩

/-- A list reads as what its elements read as. -/
theorem read_list_iff {reader : Reader α} {xs : List α} :
    read (list reader) j = .ok xs ↔
      ∃ elements, j = .arr elements ∧
        List.Forall₂ (fun element x => read reader element = .ok x) elements xs := by
  cases j with
  | arr elements =>
    rw [read, Document.ofJson, Document.ofElements_eq_map, list, mapM_eq_ok_iff,
      List.forall₂_map_left_iff]
    simp [read]
  | null | bool _ | num _ | str _ | obj _ =>
    constructor
    · intro h
      cases h
    · rintro ⟨_, ⟨⟩, -⟩

/-- A list that may be absent is the only value of its field, where it has one. -/
theorem Row.defaulted_list_iff {reader : Reader α} {xs : List α} :
    (ofJson title arity j).defaulted index key (list reader) [] = .ok xs ↔
      (j.fieldValues index key = [] ∧ xs = []) ∨
        ∃ elements, j.fieldValues index key = [.arr elements] ∧
          List.Forall₂ (fun element x => read reader element = .ok x) elements xs := by
  refine field_iff.trans (or_congr (and_congr_right' ?_) ?_)
  · exact ⟨fun h => (Except.ok.inj h).symm, fun h => congrArg Except.ok h.symm⟩
  · simp only [read_list_iff]
    constructor
    · rintro ⟨_, hvalue, elements, rfl, helements⟩
      exact ⟨elements, hvalue, helements⟩
    · rintro ⟨elements, hvalue, helements⟩
      exact ⟨_, hvalue, elements, rfl, helements⟩

/-! ## Depth -/

theorem depth_le_of_mem {elements : List Json} (h : j ∈ elements) :
    (Document.ofJson j).depth ≤ Document.depthList (Document.ofElements elements) := by
  induction elements with
  | nil => cases h
  | cons first rest ih =>
    rw [Document.ofElements, Document.depthList]
    rcases List.mem_cons.mp h with rfl | h
    · exact Nat.le_max_left _ _
    · exact Nat.le_trans (ih h) (Nat.le_max_right _ _)

theorem depth_le_of_mem_members {members : List (String × Json)} (h : (key, j) ∈ members) :
    (Document.ofJson j).depth ≤ Document.depthMembers (Document.ofJsonMembers members) := by
  induction members with
  | nil => cases h
  | cons first rest ih =>
    rw [Document.ofJsonMembers, Document.depthMembers]
    rcases List.mem_cons.mp h with rfl | h
    · exact Nat.le_max_left _ _
    · exact Nat.le_trans (ih h) (Nat.le_max_right _ _)

/-- What a record has for a field nests less deep. -/
theorem depth_lt_of_mem_fieldValues {value : Json} (h : value ∈ j.fieldValues index key) :
    (Document.ofJson value).depth < (Document.ofJson j).depth := by
  cases j with
  | obj members =>
    obtain ⟨⟨k, v⟩, hmem, rfl⟩ := List.mem_map.mp h
    exact Nat.lt_succ_of_le (depth_le_of_mem_members (List.mem_filter.mp hmem).1)
  | arr elements =>
    exact Nat.lt_succ_of_le (depth_le_of_mem (List.mem_of_getElem? (Option.mem_toList.mp h)))
  | null | bool _ | num _ | str _ => cases h

/-- The elements of a list that it has nest less deep still. -/
theorem depth_lt_of_mem_list {elements : List Json} {element : Json}
    (hvalue : j.fieldValues index key = [.arr elements]) (h : element ∈ elements) :
    (Document.ofJson element).depth + 1 < (Document.ofJson j).depth := by
  have hlist : Json.arr elements ∈ j.fieldValues index key := by
    rw [hvalue]
    exact List.mem_singleton_self _
  have helement : (Document.ofJson element).depth < (Document.ofJson (.arr elements)).depth :=
    Nat.lt_succ_of_le (depth_le_of_mem h)
  exact Nat.lt_of_le_of_lt helement (depth_lt_of_mem_fieldValues hlist)

end Wire

end ProfileMigration
