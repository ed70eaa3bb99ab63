/-
  ProfileMigration.Proofs.Wire.Record

  Records read from the objects they were written as:

    Wire.valuesOf_append / valuesOf_member? -- which values an object has under a key
    Wire.Row.required_written               -- a field that is there reads as its value
    Wire.Row.optional_written               -- and a text that may be absent as what there is
    Wire.record_written                     -- when its fields read, so does the record
    Wire.list_written                       -- when its elements read, so does a list
    Wire.json_written                       -- a value in canonical form reads as itself
    Wire.Row.optional_written_json          -- and one that may be left out as itself or none

  A field depends on the members with its key only, whatever else stands in the object.
-/
import ProfileMigration.Proofs.Identity.UuidText
import ProfileMigration.Value.Typed
import ProfileMigration.Wire.Record

namespace ProfileMigration.Wire

open TypedValue (valuesOf)

variable {α β : Type} {key k : String} {members more : List (String × Json)}

/-! ## Members of written objects -/

@[simp] theorem valuesOf_append :
    valuesOf key (members ++ more) = valuesOf key members ++ valuesOf key more := by
  rw [valuesOf, List.filter_append, List.map_append]
  rfl

@[simp] theorem valuesOf_cons (j : Json) :
    valuesOf key ((k, j) :: members) =
      if k = key then j :: valuesOf key members else valuesOf key members := by
  rw [valuesOf, List.filter_cons]
  split
  · rename_i hkey
    rw [if_pos (of_decide_eq_true hkey)]
    rfl
  · rename_i hkey
    rw [if_neg fun heq => hkey (decide_eq_true heq)]
    rfl

@[simp] theorem valuesOf_nil : valuesOf key [] = [] := rfl

@[simp] theorem valuesOf_member? (value : Option Json) :
    valuesOf key (member? k value) = if k = key then value.toList else [] := by
  cases value with
  | none => exact (ite_self _).symm
  | some j =>
    rw [member?, Option.map_some, Option.toList_some, valuesOf_cons, valuesOf_nil,
      Option.toList_some]

@[simp] theorem valuesOf_listMember? (write : α → Json) (xs : List α) :
    valuesOf key (listMember? k write xs) =
      if k = key ∧ xs ≠ [] then [ofList write xs] else [] := by
  cases xs with
  | nil => simp [listMember?]
  | cons x xs => simp [listMember?]

end ProfileMigration.Wire

namespace ProfileMigration.Document

theorem ofElements_eq_map (js : List Json) : ofElements js = js.map ofJson := by
  induction js with
  | nil => rfl
  | cons j rest ih => rw [ofElements, ih, List.map_cons]

theorem ofJsonMembers_eq_map (members : List (String × Json)) :
    ofJsonMembers members = members.map fun m => (m.1, ofJson m.2) := by
  induction members with
  | nil => rfl
  | cons entry rest ih => rw [ofJsonMembers, ih, List.map_cons]

end ProfileMigration.Document

namespace ProfileMigration.Wire

open TypedValue (valuesOf)

variable {α β : Type} {key : String} {members : List (String × Json)}

/-! ## Fields -/

/-- The row of a record that is written as an object. -/
def Row.ofMembers (title : String) (arity : Nat) (members : List (String × Json)) : Row :=
  ⟨title, arity, .inl (Document.ofJsonMembers members)⟩

namespace Row

variable {title : String} {arity index : Nat} {reader : Reader α} {missing : Gathered α}

/-- The members with a key are found wherever they stand. -/
theorem map_found (title : String) (arity index : Nat) (key : String)
    (members : List (String × Json)) :
    ((ofMembers title arity members).found index key).map Prod.fst =
      (valuesOf key members).map Document.ofJson := by
  have hplace : ∀ ms : List (String × Document),
      ((ms.zipIdx.filter fun m => m.1.1 = key).map fun m => (m.1.2, m.2)).map Prod.fst =
        (ms.filter (·.1 = key)).map Prod.snd := by
    intro ms
    have hms : ms.filter (·.1 = key) = (ms.zipIdx.map Prod.fst).filter (·.1 = key) := by
      rw [List.zipIdx_map_fst]
    rw [hms, List.filter_map, List.map_map, List.map_map]
    rfl
  rw [found, ofMembers]
  refine (hplace _).trans ?_
  rw [Document.ofJsonMembers_eq_map, List.filter_map, List.map_map, valuesOf,
    List.map_map]
  rfl

theorem field_written {j : Json} {a : α} (hvalues : valuesOf key members = [j])
    (hread : read reader j = .ok a) :
    (ofMembers title arity members).field index key reader missing = .ok a := by
  have hfound := map_found title arity index key members
  rw [hvalues] at hfound
  obtain ⟨⟨d, place⟩, rest, hcons, hd, hrest⟩ := List.map_eq_cons_iff.mp hfound
  obtain rfl := List.map_eq_nil_iff.mp hrest
  have hvalue : reader d = .ok a := by
    rw [show d = Document.ofJson j from hd]
    exact hread
  rw [field, hcons]
  dsimp only
  rw [hvalue]

theorem field_absent (hvalues : valuesOf key members = []) :
    (ofMembers title arity members).field index key reader missing = missing := by
  have hfound := map_found title arity index key members
  rw [hvalues] at hfound
  rw [field, List.map_eq_nil_iff.mp hfound]

/-- A field that is there reads as its value. -/
theorem required_written {j : Json} {a : α} (hvalues : valuesOf key members = [j])
    (hread : read reader j = .ok a) :
    (ofMembers title arity members).required index key reader = .ok a :=
  field_written hvalues hread

theorem defaulted_written {j : Json} {a value : α} (hvalues : valuesOf key members = [j])
    (hread : read reader j = .ok a) :
    (ofMembers title arity members).defaulted index key reader value = .ok a :=
  field_written hvalues hread

theorem nullable_written {j : Json} {a : α} (hnull : j ≠ .null) (hread : read reader j = .ok a) :
    read (nullable reader) j = .ok (some a) := by
  cases j with
  | null => exact absurd rfl hnull
  | bool _ | num _ | str _ | arr _ | obj _ => exact congrArg (Except.map some) hread

/-- A text that is left out when there is nothing to write reads as what there is. -/
theorem optional_written {write : α → String} {a? : Option α}
    (hvalues : valuesOf key members = (a?.map fun a => .str (write a)).toList)
    (hread : ∀ a, a? = some a → read reader (.str (write a)) = .ok a) :
    (ofMembers title arity members).optional index key reader = .ok a? := by
  cases a? with
  | none => exact field_absent hvalues
  | some a => exact field_written hvalues (nullable_written nofun (hread a rfl))

/-- A field that is null when there is nothing to write reads as its value or nothing. -/
theorem optional_written_null {write : α → Json} {value : α → β} {reader : Reader β}
    {a? : Option α} (hvalues : valuesOf key members = [.ofOption (a?.map write)])
    (hnull : ∀ a, write a ≠ .null)
    (hread : ∀ a, a? = some a → read reader (write a) = .ok (value a)) :
    (ofMembers title arity members).optional index key reader = .ok (a?.map value) := by
  refine field_written hvalues ?_
  cases a? with
  | none => rfl
  | some a => exact nullable_written (hnull a) (hread a rfl)

end Row

/-! ## Records and lists -/

theorem Gathered.map_ok {f : α → β} {x : Gathered α} {a : α} (h : x = .ok a) :
    f <$> x = (.ok (f a) : Gathered β) := by
  rw [h]
  rfl

/-- Fields that read are put together. -/
theorem Gathered.seq_ok {f : Gathered (α → β)} {g : α → β} {x : Gathered α} {a : α}
    (hf : f = .ok g) (hx : x = .ok a) : f <*> x = (.ok (g a) : Gathered β) := by
  rw [hf, hx]
  rfl

/-- When the fields of an object read, so does the record. -/
theorem record_written {title : String} {arity : Nat} {fields : Row → Gathered α} {a : α}
    (h : fields (.ofMembers title arity members) = .ok a) :
    read (record title arity fields) (.obj members) = .ok a := by
  have hfields : fields ⟨title, arity, .inl (Document.ofJsonMembers members)⟩ = .ok a := h
  rw [read, Document.ofJson, record]
  simp only [bind, Except.bind, hfields, Row.surplus]

/-- When the elements of a list read, so does the list. -/
theorem list_written {write : α → Json} {value : α → β} {reader : Reader β} {xs : List α}
    (h : ∀ x ∈ xs, read reader (write x) = .ok (value x)) :
    read (list reader) (ofList write xs) = .ok (xs.map value) := by
  rw [read, ofList, Document.ofJson, Document.ofElements_eq_map, List.map_map, list]
  exact mapM_map_eq_pure h

theorem list_written_self {write : α → Json} {reader : Reader α} {xs : List α}
    (h : ∀ x ∈ xs, read reader (write x) = .ok x) :
    read (list reader) (ofList write xs) = .ok xs := by
  have hread := list_written h
  rwa [List.map_id'] at hread

/-- A list that is left out when it is empty reads as what it is. -/
theorem Row.defaulted_listMember {title : String} {arity index : Nat} {write : α → Json}
    {reader : Reader α} {xs : List α}
    (hvalues : valuesOf key members = if xs ≠ [] then [ofList write xs] else [])
    (hread : ∀ x ∈ xs, read reader (write x) = .ok x) :
    (ofMembers title arity members).defaulted index key (list reader) [] = .ok xs := by
  cases xs with
  | nil => exact field_absent hvalues
  | cons x xs => exact field_written hvalues (list_written_self hread)

theorem read_json (j : Json) : read json j = .ok j.canonical := by
  rw [read, json, written, Document.value?_ofJson]
  rfl

theorem json_written {j : Json} (h : j.canonical = j) : read json j = .ok j := by
  rw [read_json, h]

/-- What reads back of a value that may be left out: null is taken for none. -/
def rereadValue (j? : Option Json) : Option Json :=
  (j?.map Json.canonical).filter fun j => decide (j ≠ .null)

/-- Only null has the canonical form of null. -/
theorem canonical_eq_null_iff {j : Json} : j.canonical = .null ↔ j = .null := by
  cases j <;> simp [Json.canonical]

theorem rereadValue_eq_iff {j? : Option Json} :
    rereadValue j? = j? ↔ ∀ j ∈ j?.toList, j ≠ .null ∧ j.canonical = j := by
  cases j? with
  | none => simp [rereadValue]
  | some j =>
    simp only [rereadValue, Option.map_some, Option.toList_some, List.mem_singleton, forall_eq]
    by_cases hnull : j = .null
    · simp [hnull, Json.canonical]
    · simp [hnull]

/-- A value that is left out when there is none reads as what reads back of it. -/
theorem Row.optional_written_json {title : String} {arity index : Nat} {j? : Option Json}
    (hvalues : valuesOf key members = j?.toList) :
    (ofMembers title arity members).optional index key json = .ok (rereadValue j?) := by
  cases j? with
  | none => exact field_absent hvalues
  | some j =>
    by_cases hnull : j = .null
    · rw [hnull] at hvalues ⊢
      exact field_written hvalues rfl
    · have hcanonical : j.canonical ≠ .null := fun h => hnull (canonical_eq_null_iff.mp h)
      have hkept : rereadValue (some j) = some j.canonical := by
        simp [rereadValue, hcanonical]
      rw [hkept]
      exact field_written hvalues (nullable_written hnull (read_json j))

theorem textOf_written {expected s : String} {ofText? : String → Option α} {a : α}
    (h : ofText? s = some a) : read (textOf expected ofText?) (.str s) = .ok a := by
  rw [read, Document.ofJson, textOf]
  simp only [text, bind, Except.bind, h]

theorem name_written {expected tag : String} {ofText? : String → Option α} {a : α}
    (h : ofText? tag = some a) : read (name expected ofText?) (.str tag) = .ok a :=
  textOf_written h

theorem uuid_written (id : Uuid) : read uuid (.str id.text) = .ok id :=
  textOf_written (Uuid.ofText?_text id)

end ProfileMigration.Wire
