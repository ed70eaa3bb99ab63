/-
  ProfileMigration.Proofs.Field.Binding

  What the references of a field tree are, and what binding makes of the tree:

    FieldMap.Holds              -- a field stands somewhere in a tree
    FieldMap.mem_objectIds_iff  -- what a tree refers to, by the values that stand in it
    FieldMap.gather             -- references collected one by one, passing over known ones
    Field.Becomes / FieldMap.Becomes -- a tree, and one of the same shape, value by value
    FieldMap.bind_eq_ok_iff     -- what binding gives
    FieldMap.bind_exact         -- references and binding agree on every tree
-/
import ProfileMigration.Proofs.Field.Leaves
import ProfileMigration.Proofs.Field.Segments
import ProfileMigration.Proofs.Sequence.FirstMention
import ProfileMigration.Proofs.Text.KeyedLookup

namespace ProfileMigration

/-! ## Fields of a tree -/

/-- A field stands somewhere in a tree: under a name, in a group, or in an item. -/
inductive FieldMap.Holds (f : Field) : FieldMap → Prop where
  | here {m : FieldMap} {k : String} (h : (k, f) ∈ m) : Holds f m
  | group {m fields : FieldMap} {k : String} (h : (k, .group fields) ∈ m)
      (hf : Holds f fields) : Holds f m
  | item {m row : FieldMap} {k : String} {rows : List FieldMap} (h : (k, .items rows) ∈ m)
      (hrow : row ∈ rows) (hf : Holds f row) : Holds f m

namespace FieldMap

variable {m : FieldMap} {f : Field} {id : Uuid}

theorem Holds.cons (h : Holds f m) (entry : String × Field) : Holds f (entry :: m) := by
  cases h with
  | here h => exact .here (List.mem_cons_of_mem _ h)
  | group h hf => exact .group (List.mem_cons_of_mem _ h) hf
  | item h hrow hf => exact .item (List.mem_cons_of_mem _ h) hrow hf

/-- What is written at a path stands in the tree. -/
theorem holds_set (m : FieldMap) (path : String) (f : Field) : Holds f (m.set path f) := by
  have hsegs := Path.segments_ne_nil path
  rw [set]
  -- The group that the path goes through may be any, so the tree varies along the segments
  generalize Path.segments path = segs at hsegs
  induction segs generalizing m with
  | nil => exact absurd rfl hsegs
  | cons s rest ih =>
    cases rest with
    | nil => exact .here (Keyed.mem_of_get? (Keyed.get?_insert_self s f m))
    | cons next more =>
      exact .group (Keyed.mem_of_get? (Keyed.get?_insert_self s _ m)) (ih _ (List.cons_ne_nil _ _))

end FieldMap

/-! ## References -/

namespace Field

mutual

/-- A reference below a field is that of a value which stands where the field does. -/
theorem exists_holds_of_mem {id : Uuid} : ∀ {f : Field}, id ∈ f.objectIds →
    ∀ {m : FieldMap} {k : String}, (k, f) ∈ m → ∃ v, v.objectId? = some id ∧ m.Holds (.value v)
  | .value v, hid, m, k, hmem => by
    rw [objectIds, Option.mem_toList] at hid
    exact ⟨v, hid, .here hmem⟩
  | .group fields, hid, m, k, hmem => by
    rw [objectIds] at hid
    obtain ⟨v, hv, hholds⟩ := exists_holds_of_mem_fields hid
    exact ⟨v, hv, .group hmem hholds⟩
  | .items rows, hid, m, k, hmem => by
    rw [objectIds] at hid
    obtain ⟨row, hrow, v, hv, hholds⟩ := exists_holds_of_mem_rows hid
    exact ⟨v, hv, .item hmem hrow hholds⟩

theorem exists_holds_of_mem_fields {id : Uuid} : ∀ {fields : List (String × Field)},
    id ∈ objectIdsOf fields → ∃ v, v.objectId? = some id ∧ FieldMap.Holds (.value v) fields
  | [], hid => by cases hid
  | (k, f) :: rest, hid => by
    rw [objectIdsOf, List.mem_append] at hid
    rcases hid with hid | hid
    · exact exists_holds_of_mem hid List.mem_cons_self
    · obtain ⟨v, hv, hholds⟩ := exists_holds_of_mem_fields hid
      exact ⟨v, hv, hholds.cons _⟩

theorem exists_holds_of_mem_rows {id : Uuid} : ∀ {rows : List (List (String × Field))},
    id ∈ objectIdsOfRows rows →
      ∃ row ∈ rows, ∃ v, v.objectId? = some id ∧ FieldMap.Holds (.value v) row
  | [], hid => by cases hid
  | row :: rest, hid => by
    rw [objectIdsOfRows, List.mem_append] at hid
    rcases hid with hid | hid
    · exact ⟨row, List.mem_cons_self, exists_holds_of_mem_fields hid⟩
    · obtain ⟨other, hother, hfound⟩ := exists_holds_of_mem_rows hid
      exact ⟨other, List.mem_cons_of_mem _ hother, hfound⟩

end

end Field

namespace FieldMap

variable {m : FieldMap} {f : Field} {id : Uuid}

theorem mem_objectIds_of_mem {k : String} (h : (k, f) ∈ m) (hid : id ∈ f.objectIds) :
    id ∈ m.objectIds := by
  induction m with
  | nil => cases h
  | cons entry rest ih =>
    rw [objectIds, Field.objectIdsOf, List.mem_append]
    rcases List.mem_cons.mp h with rfl | h
    · exact .inl hid
    · exact .inr (ih h)

/-- Wherever a field stands, the tree refers to what the field refers to. -/
theorem Holds.mem_objectIds (h : Holds f m) (hid : id ∈ f.objectIds) : id ∈ m.objectIds := by
  induction h with
  | here h => exact mem_objectIds_of_mem h hid
  | group h _ ih =>
    refine mem_objectIds_of_mem h ?_
    rw [Field.objectIds]
    exact ih
  | item h hrow _ ih => exact mem_objectIds_of_mem h (Field.mem_objectIds_items.mpr ⟨_, hrow, ih⟩)

/-- A tree refers to what the values in it refer to. -/
theorem mem_objectIds_iff :
    id ∈ m.objectIds ↔ ∃ v, v.objectId? = some id ∧ m.Holds (.value v) := by
  constructor
  · exact Field.exists_holds_of_mem_fields
  · rintro ⟨v, hv, hholds⟩
    refine hholds.mem_objectIds ?_
    rw [Field.objectIds, Option.mem_toList]
    exact hv

end FieldMap

/-! ## Collecting references -/

namespace Field

mutual

/-- Adds the references below a field to those seen so far. -/
def gather (seen : List Uuid) : Field → List Uuid
  | .value v =>
    match v.objectId? with
    | some id => if id ∈ seen then seen else seen ++ [id]
    | none => seen
  | .group fields => gatherFields seen fields
  | .items rows => gatherRows seen rows

/-- Adds the references below named fields, in order. -/
def gatherFields (seen : List Uuid) : List (String × Field) → List Uuid
  | [] => seen
  | (_, f) :: rest => gatherFields (gather seen f) rest

/-- Adds the references below items, in order. -/
def gatherRows (seen : List Uuid) : List (List (String × Field)) → List Uuid
  | [] => seen
  | row :: rest => gatherRows (gatherFields seen row) rest

end

mutual

/-- What has been seen stays without repetitions, in order of first mention. -/
theorem gather_eraseDups (seen : List Uuid) :
    (f : Field) → gather seen.eraseDups f = (seen ++ f.objectIds).eraseDups
  | .value v => by
    rw [gather, objectIds]
    cases v.objectId? with
    | none => rw [Option.toList_none, List.append_nil]
    | some id =>
      dsimp only
      rw [Option.toList_some]
      by_cases hid : id ∈ seen
      · rw [if_pos (List.mem_eraseDups.mpr hid), eraseDups_snoc_of_mem hid]
      · rw [if_neg fun h => hid (List.mem_eraseDups.mp h), eraseDups_snoc_of_not_mem hid]
  | .group fields => by
    rw [gather, objectIds]
    exact gatherFields_eraseDups seen fields
  | .items rows => by
    rw [gather, objectIds]
    exact gatherRows_eraseDups seen rows

theorem gatherFields_eraseDups (seen : List Uuid) :
    (fields : List (String × Field)) →
      gatherFields seen.eraseDups fields = (seen ++ objectIdsOf fields).eraseDups
  | [] => by rw [gatherFields, objectIdsOf, List.append_nil]
  | (k, f) :: rest => by
    rw [gatherFields, gather_eraseDups seen f, gatherFields_eraseDups _ rest, objectIdsOf,
      List.append_assoc]

theorem gatherRows_eraseDups (seen : List Uuid) :
    (rows : List (List (String × Field))) →
      gatherRows seen.eraseDups rows = (seen ++ objectIdsOfRows rows).eraseDups
  | [] => by rw [gatherRows, objectIdsOfRows, List.append_nil]
  | row :: rest => by
    rw [gatherRows, gatherFields_eraseDups seen row, gatherRows_eraseDups _ rest,
      objectIdsOfRows, List.append_assoc]

end

end Field

/-- The references of a tree, collected one by one. -/
def FieldMap.gather (m : FieldMap) : List Uuid := Field.gatherFields [] m

theorem FieldMap.gather_eq (m : FieldMap) : m.gather = m.references :=
  Field.gatherFields_eraseDups [] m

/-! ## Bound trees -/

mutual

/-- A field, and one of the same shape with the same names, in which every reference has become
    the text of its remote identifier. -/
inductive Field.Becomes (remote : Uuid → Option Uuid) : Field → Field → Prop where
  | value {v w : TypedValue} (h : v.Becomes remote w) : Field.Becomes remote (.value v) (.value w)
  | group {fields bound : FieldMap} (h : FieldMap.Becomes remote fields bound) :
      Field.Becomes remote (.group fields) (.group bound)
  | items {rows bound : List FieldMap} (h : Field.RowsBecome remote rows bound) :
      Field.Becomes remote (.items rows) (.items bound)

/-- Named fields, and what they become, under the same names in the same order. -/
inductive FieldMap.Becomes (remote : Uuid → Option Uuid) : FieldMap → FieldMap → Prop where
  | nil : FieldMap.Becomes remote [] []
  | cons {k : String} {f g : Field} {rest bound : FieldMap} (h : Field.Becomes remote f g)
      (hrest : FieldMap.Becomes remote rest bound) :
      FieldMap.Becomes remote ((k, f) :: rest) ((k, g) :: bound)

/-- Items, and what they become, one for one. -/
inductive Field.RowsBecome (remote : Uuid → Option Uuid) :
    List FieldMap → List FieldMap → Prop where
  | nil : Field.RowsBecome remote [] []
  | cons {row bound : FieldMap} {rest more : List FieldMap} (h : FieldMap.Becomes remote row bound)
      (hrest : Field.RowsBecome remote rest more) :
      Field.RowsBecome remote (row :: rest) (bound :: more)

end

namespace Field

variable {ids : RemoteIds}

theorem bind_value_eq_ok_iff {v : TypedValue} {g : Field} :
    (value v).bind ids = .ok g ↔ (value v).Becomes ids.get? g := by
  have hiff : (value v).Becomes ids.get? g ↔ ∃ w, g = value w ∧ v.Becomes ids.get? w := by
    constructor
    · rintro (h | _ | _)
      exact ⟨_, rfl, h⟩
    · rintro ⟨w, rfl, h⟩
      exact .value h
  rw [hiff, bind]
  cases hid : v.objectId? with
  | none => simp [TypedValue.Becomes, hid, eq_comm]
  | some r =>
    cases hremote : ids.get? r with
    | none => simp [TypedValue.Becomes, hid, hremote]
    | some remote => simp [TypedValue.Becomes, hid, hremote, eq_comm]

mutual

/-- Binding a field gives the one field that it becomes. -/
theorem bind_eq_ok_iff : ∀ {f g : Field}, f.bind ids = .ok g ↔ f.Becomes ids.get? g
  | .value v, g => bind_value_eq_ok_iff
  | .group fields, g => by
    rw [bind]
    constructor
    · intro h
      obtain ⟨bound, hbound, rfl⟩ := map_eq_ok h
      exact .group (bindFields_eq_ok_iff.mp hbound)
    · rintro (_ | h | _)
      rw [bindFields_eq_ok_iff.mpr h]
      rfl
  | .items rows, g => by
    rw [bind]
    constructor
    · intro h
      obtain ⟨bound, hbound, rfl⟩ := map_eq_ok h
      exact .items (bindRows_eq_ok_iff.mp hbound)
    · rintro (_ | _ | h)
      rw [bindRows_eq_ok_iff.mpr h]
      rfl

theorem bindFields_eq_ok_iff : ∀ {fields bound : List (String × Field)},
    bindFields ids fields = .ok bound ↔ FieldMap.Becomes ids.get? fields bound
  | [], bound => by
    rw [bindFields]
    constructor
    · intro h
      obtain rfl := Except.ok.inj h
      exact .nil
    · rintro ⟨⟩
      rfl
  | (k, f) :: rest, bound => by
    rw [bindFields]
    constructor
    · intro h
      split at h
      · cases h
      · rename_i g hg
        obtain ⟨more, hmore, rfl⟩ := map_eq_ok h
        exact .cons (bind_eq_ok_iff.mp hg) (bindFields_eq_ok_iff.mp hmore)
    · rintro (_ | ⟨h, hrest⟩)
      rw [bind_eq_ok_iff.mpr h, bindFields_eq_ok_iff.mpr hrest]
      rfl

theorem bindRows_eq_ok_iff : ∀ {rows bound : List (List (String × Field))},
    bindRows ids rows = .ok bound ↔ RowsBecome ids.get? rows bound
  | [], bound => by
    rw [bindRows]
    constructor
    · intro h
      obtain rfl := Except.ok.inj h
      exact .nil
    · rintro ⟨⟩
      rfl
  | row :: rest, bound => by
    rw [bindRows]
    constructor
    · intro h
      split at h
      · cases h
      · rename_i q hq
        obtain ⟨more, hmore, rfl⟩ := map_eq_ok h
        exact .cons (bindFields_eq_ok_iff.mp hq) (bindRows_eq_ok_iff.mp hmore)
    · rintro (_ | ⟨h, hrest⟩)
      rw [bindFields_eq_ok_iff.mpr h, bindRows_eq_ok_iff.mpr hrest]
      rfl

end

end Field

namespace FieldMap

/-- Binding a tree gives the one tree that it becomes. -/
theorem bind_eq_ok_iff {ids : RemoteIds} {m data : FieldMap} :
    m.bind ids = .ok data ↔ m.Becomes ids.get? data :=
  Field.bindFields_eq_ok_iff

/-- Binding fails for want of the first reference without a remote identifier. -/
theorem bind_eq_error_iff {ids : RemoteIds} {m : FieldMap} {id : Uuid} :
    m.bind ids = .error id ↔ m.references.find? (fun r => (ids.get? r).isNone) = some id := by
  rw [references, find?_eraseDups]
  exact m.firstUnbound_bind ids id

/-! ## Exactness -/

/-- Binding is exact on every tree. It fails when some reference has no remote identifier, and
    names the first one in the order of the references; otherwise it gives a tree of the same
    shape in which every reference, however its identifier is spelled, has become the text of
    the remote one, every other value is as it was, and nothing is referred to any more. The
    references are what collecting them one by one gives, each once; they are those of the
    values that stand in the tree, and a reference placed anywhere is among them. -/
theorem bind_exact (ids : RemoteIds) (m : FieldMap) :
    ((∃ id, m.bind ids = .error id) ↔ ∃ r ∈ m.references, ids.get? r = none) ∧
    (∀ id, m.bind ids = .error id ↔
      m.references.find? (fun r => (ids.get? r).isNone) = some id) ∧
    (∀ data, m.bind ids = .ok data ↔ m.Becomes ids.get? data) ∧
    ((∀ r ∈ m.references, ids.get? r ≠ none) →
      ∃ data, m.bind ids = .ok data ∧ m.Becomes ids.get? data ∧ data.references = []) ∧
    m.gather = m.references ∧ m.references.Nodup ∧
    (∀ r, r ∈ m.references ↔ ∃ v, v.objectId? = some r ∧ m.Holds (.value v)) ∧
    (∀ r, m.Holds (.objectRef r) → r ∈ m.references) ∧
    ∀ r path, r ∈ (m.set path (.objectRef r)).references := by
  have hplaced : ∀ {tree : FieldMap} {r : Uuid}, tree.Holds (.objectRef r) →
      r ∈ tree.references :=
    fun h => List.mem_eraseDups.mpr (h.mem_objectIds (Field.mem_objectIds_objectRef.mpr rfl))
  refine ⟨?fails, fun _ => bind_eq_error_iff, fun _ => bind_eq_ok_iff, ?bound, m.gather_eq,
    nodup_eraseDups _, ?values, fun _ => hplaced, fun r path => hplaced (m.holds_set path _)⟩
  case fails =>
    simp only [bind_eq_error_iff, ← Option.isSome_iff_exists, List.find?_isSome,
      Option.isNone_iff_eq_none]
  case bound =>
    intro hall
    cases h : m.bind ids with
    | error id =>
      -- The reference that is named is one of those that have a remote identifier
      have hfirst := bind_eq_error_iff.mp h
      have hnone : (ids.get? id).isNone := by simpa using List.find?_some hfirst
      exact absurd (Option.isNone_iff_eq_none.mp hnone)
        (hall id (List.mem_of_find?_eq_some hfirst))
    | ok data =>
      refine ⟨data, rfl, bind_eq_ok_iff.mp h, ?_⟩
      rw [references, objectIds_of_bind h, List.eraseDups_nil]
  case values =>
    intro r
    rw [references, List.mem_eraseDups]
    exact mem_objectIds_iff

/-- An identifier is replaced in any spelling, and a device variable stays. -/
example :
    let id : Uuid := ⟨0x00000000_0000_4000_8000_0000000000aa#128⟩
    let remote : Uuid := ⟨0x00000000_0000_4000_8000_000000000001#128⟩
    bind [(id, remote)]
        [("host", .value (.reference "host_name")),
          ("list", .value (.reference "urn:uuid:00000000-0000-4000-8000-0000000000AA"))] =
      .ok [("host", .value (.reference "host_name")), ("list", .value (.text remote.text))] := by
  decide +kernel

end FieldMap

end ProfileMigration
