/-
  ProfileMigration.Proofs.Field.ReferenceBounds

  Which objects a field tree may refer to:

    TypedValue.RefersOnly / Field.RefersOnly / FieldMap.RefersOnly
                                -- every referenced object is of a given kind
    FieldMap.RefersOnly.field?  -- reading finds no other references
    FieldMap.RefersOnly.set     -- writing adds none but those of the written field
    FieldMap.firstUnbound_bind  -- binding fails for want of a remote identifier, and only then
    FieldMap.objectIds_of_bind  -- what is bound refers to nothing
-/
import ProfileMigration.Field.References

namespace ProfileMigration

variable {S : Uuid → Prop}

/-! ## Bounds on references -/

/-- The object that a value refers to, if there is one, is of a given kind. -/
def TypedValue.RefersOnly (S : Uuid → Prop) (v : TypedValue) : Prop :=
  ∀ id, v.objectId? = some id → S id

/-- Every object referenced below a field is of a given kind. -/
def Field.RefersOnly (S : Uuid → Prop) (f : Field) : Prop := ∀ id ∈ f.objectIds, S id

/-- Every object referenced in a field tree is of a given kind. -/
def FieldMap.RefersOnly (S : Uuid → Prop) (m : FieldMap) : Prop := ∀ id ∈ m.objectIds, S id

namespace TypedValue

theorem refersOnly_fixed (l : Literal) : (fixed l).RefersOnly S := nofun

theorem refersOnly_inherited (l? : Option Literal) : (inherited l?).RefersOnly S := nofun

end TypedValue

namespace Field

theorem refersOnly_value_iff {v : TypedValue} : (value v).RefersOnly S ↔ v.RefersOnly S := by
  rw [RefersOnly, TypedValue.RefersOnly]
  rw [objectIds]
  cases v.objectId? with
  | none => simp
  | some id => simp

theorem refersOnly_group_iff {m : FieldMap} :
    (group m).RefersOnly S ↔ FieldMap.RefersOnly S m := by
  rw [RefersOnly, objectIds]
  rfl

theorem refersOnly_items_iff {rows : List FieldMap} :
    (items rows).RefersOnly S ↔ ∀ row ∈ rows, FieldMap.RefersOnly S row := by
  rw [RefersOnly, objectIds]
  induction rows with
  | nil => simp [objectIdsOfRows]
  | cons row rest ih =>
    rw [objectIdsOfRows, List.forall_mem_append, ih, List.forall_mem_cons]
    rfl

end Field

namespace FieldMap

theorem refersOnly_nil : RefersOnly S [] := nofun

theorem refersOnly_cons_iff {k : String} {f : Field} {m : FieldMap} :
    RefersOnly S ((k, f) :: m) ↔ f.RefersOnly S ∧ RefersOnly S m := by
  rw [RefersOnly, objectIds]
  rw [Field.objectIdsOf, List.forall_mem_append]
  rfl

theorem RefersOnly.mono {T : Uuid → Prop} {m : FieldMap} (h : RefersOnly S m)
    (hST : ∀ id, S id → T id) : RefersOnly T m :=
  fun id hid => hST id (h id hid)

/-! ## Reading -/

theorem RefersOnly.get? {m : FieldMap} (h : RefersOnly S m) {key : String} {f : Field}
    (hf : Keyed.get? key m = some f) : f.RefersOnly S := by
  induction m with
  | nil => cases hf
  | cons entry rest ih =>
    obtain ⟨k, g⟩ := entry
    obtain ⟨hg, hrest⟩ := refersOnly_cons_iff.mp h
    rw [Keyed.get?] at hf
    split at hf
    · obtain rfl := Option.some.inj hf
      exact hg
    · exact ih hrest hf

theorem RefersOnly.fieldAt? {m : FieldMap} (h : RefersOnly S m) {segs : List String} {f : Field}
    (hf : m.fieldAt? segs = some f) : f.RefersOnly S := by
  -- A path is a key as a whole, or it is cut and a shorter one is left for the group in front
  induction hn : segs.length using Nat.strongRecOn generalizing m segs with
  | ind n ih =>
    rw [FieldMap.fieldAt?] at hf
    split at hf
    · rename_i field hfield
      obtain rfl := Option.some.inj hf
      exact h.get? hfield
    · obtain ⟨⟨cut, hcut⟩, -, hfound⟩ := List.exists_of_findSome?_eq_some hf
      dsimp only at hfound
      split at hfound
      · rename_i inner hinner
        have hlt := Path.length_tail_lt_of_mem_cuts hcut
        exact ih _ (hn ▸ hlt) (Field.refersOnly_group_iff.mp (h.get? hinner)) hfound rfl
      · cases hfound

theorem RefersOnly.field? {m : FieldMap} (h : RefersOnly S m) {path : String} {f : Field}
    (hf : m.field? path = some f) : f.RefersOnly S :=
  h.fieldAt? hf

theorem RefersOnly.value? {m : FieldMap} (h : RefersOnly S m) {path : String} {v : TypedValue}
    (hv : m.value? path = some v) : v.RefersOnly S := by
  obtain ⟨f, hf, hfv⟩ := Option.bind_eq_some_iff.mp hv
  cases f with
  | value w =>
    obtain rfl := Option.some.inj hfv
    exact Field.refersOnly_value_iff.mp (h.field? hf)
  | group _ | items _ => cases hfv

theorem RefersOnly.group? {m g : FieldMap} (h : RefersOnly S m) {path : String}
    (hg : m.group? path = some g) : RefersOnly S g := by
  obtain ⟨f, hf, hfg⟩ := Option.bind_eq_some_iff.mp hg
  cases f with
  | group fields =>
    obtain rfl := Option.some.inj hfg
    exact Field.refersOnly_group_iff.mp (h.field? hf)
  | value _ | items _ => cases hfg

/-- A group that is not there refers to nothing. -/
theorem RefersOnly.group?_getD {m : FieldMap} (h : RefersOnly S m) (path : String) :
    RefersOnly S ((m.group? path).getD []) := by
  cases hg : m.group? path with
  | none => exact refersOnly_nil
  | some g => exact h.group? hg

theorem RefersOnly.items {m : FieldMap} (h : RefersOnly S m) {path : String} :
    ∀ row ∈ m.items path, RefersOnly S row := by
  intro row hrow
  rw [FieldMap.items] at hrow
  split at hrow
  · rename_i rows hrows
    exact Field.refersOnly_items_iff.mp (h.field? hrows) row hrow
  · rename_i fields hfields
    rw [List.mem_singleton.mp hrow]
    exact Field.refersOnly_group_iff.mp (h.field? hfields)
  · cases hrow

/-! ## Writing -/

theorem RefersOnly.insert {m : FieldMap} (h : RefersOnly S m) {f : Field} (hf : f.RefersOnly S)
    (key : String) : RefersOnly S (Keyed.insert key f m) := by
  induction m with
  | nil => exact refersOnly_cons_iff.mpr ⟨hf, h⟩
  | cons entry rest ih =>
    obtain ⟨k, g⟩ := entry
    obtain ⟨hg, hrest⟩ := refersOnly_cons_iff.mp h
    rw [Keyed.insert]
    split
    · exact refersOnly_cons_iff.mpr ⟨hf, h⟩
    · split
      · exact refersOnly_cons_iff.mpr ⟨hf, hrest⟩
      · exact refersOnly_cons_iff.mpr ⟨hg, ih hrest⟩

theorem RefersOnly.setAt {m : FieldMap} (h : RefersOnly S m) {f : Field} (hf : f.RefersOnly S)
    (segs : List String) : RefersOnly S (m.setAt segs f) := by
  induction segs generalizing m with
  | nil => exact h
  | cons s rest ih =>
    cases rest with
    | nil => exact h.insert hf s
    | cons t rest =>
      unfold FieldMap.setAt
      refine h.insert (Field.refersOnly_group_iff.mpr (ih ?_)) s
      split
      · rename_i fields hfields
        exact Field.refersOnly_group_iff.mp (h.get? hfields)
      · exact refersOnly_nil

theorem RefersOnly.set {m : FieldMap} (h : RefersOnly S m) {f : Field} (hf : f.RefersOnly S)
    (path : String) : RefersOnly S (m.set path f) :=
  h.setAt hf _

end FieldMap

/-! ## Binding -/

/-- What computations in a row give comes of what the first one gives. -/
theorem bind_eq_ok {ε α β : Type} {x : Except ε α} {f : α → Except ε β} {b : β}
    (h : x >>= f = .ok b) : ∃ a, x = .ok a ∧ f a = .ok b := by
  cases x with
  | error e => cases h
  | ok a => exact ⟨a, rfl, h⟩

/-- What a mapped computation gives comes of what the computation gives. -/
theorem map_eq_ok {ε α β : Type} {x : Except ε α} {f : α → β} {b : β} (h : x.map f = .ok b) :
    ∃ a, x = .ok a ∧ f a = b := by
  cases x with
  | error e => cases h
  | ok a => exact ⟨a, rfl, Except.ok.inj h⟩

/-- A binding fails with the first of these objects that has no remote identifier. -/
def FirstUnbound {α : Type} (ids : RemoteIds) (refs : List Uuid) (x : Except Uuid α) : Prop :=
  ∀ id, x = .error id ↔ refs.find? (fun id => (ids.get? id).isNone) = some id

namespace FirstUnbound

variable {α β γ : Type} {ids : RemoteIds} {refs more : List Uuid}

theorem find?_of_ok {x : Except Uuid α} (h : FirstUnbound ids refs x) {a : α} (hx : x = .ok a) :
    refs.find? (fun id => (ids.get? id).isNone) = none := by
  cases hfind : refs.find? (fun id => (ids.get? id).isNone) with
  | none => rfl
  | some id =>
    rw [(h id).mpr hfind] at hx
    cases hx

theorem map {x : Except Uuid α} (h : FirstUnbound ids refs x) (f : α → β) :
    FirstUnbound ids refs (x.map f) := by
  intro id
  rw [← h id]
  cases x with
  | error e => simp [Except.map]
  | ok a => simp [Except.map]

/-- Of two bindings in a row the first that fails counts. -/
theorem append {x : Except Uuid α} {y : Except Uuid β} {z : Except Uuid γ}
    (hx : FirstUnbound ids refs x) (hy : FirstUnbound ids more y) (f : α → β → γ)
    (herror : ∀ e, x = .error e → z = .error e) (hok : ∀ a, x = .ok a → z = y.map (f a)) :
    FirstUnbound ids (refs ++ more) z := by
  intro id
  rw [List.find?_append]
  -- The second binding is only tried after the first one has found everything
  cases hxe : x with
  | error e =>
    rw [(hx e).mp hxe, herror e hxe]
    simp
  | ok a =>
    rw [hx.find?_of_ok hxe, Option.none_or, hok a hxe]
    exact hy.map (f a) id

end FirstUnbound

namespace Field

mutual

theorem firstUnbound_bind (ids : RemoteIds) :
    (f : Field) → FirstUnbound ids f.objectIds (f.bind ids)
  | .value v => by
    intro id
    rw [Field.bind, objectIds]
    cases v.objectId? with
    | none => simp
    | some own =>
      dsimp only
      cases hown : ids.get? own with
      | none => simp [hown]
      | some remote => simp [hown]
  | .group fields => by
    rw [Field.bind, objectIds]
    exact (firstUnbound_bindFields ids fields).map _
  | .items rows => by
    rw [Field.bind, objectIds]
    exact (firstUnbound_bindRows ids rows).map _

theorem firstUnbound_bindFields (ids : RemoteIds) :
    (m : List (String × Field)) → FirstUnbound ids (objectIdsOf m) (bindFields ids m)
  | [] => fun id => by simp [bindFields, objectIdsOf]
  | (k, f) :: rest => by
    rw [bindFields, objectIdsOf]
    exact (firstUnbound_bind ids f).append (firstUnbound_bindFields ids rest)
      (fun f rest => (k, f) :: rest) (fun e he => by rw [he]) fun a ha => by rw [ha]

theorem firstUnbound_bindRows (ids : RemoteIds) :
    (rows : List (List (String × Field))) →
      FirstUnbound ids (objectIdsOfRows rows) (bindRows ids rows)
  | [] => fun id => by simp [bindRows, objectIdsOfRows]
  | row :: rest => by
    rw [bindRows, objectIdsOfRows]
    exact (firstUnbound_bindFields ids row).append (firstUnbound_bindRows ids rest)
      (fun row rest => row :: rest) (fun e he => by rw [he]) fun a ha => by rw [ha]

end

end Field

/-- A field tree is not bound exactly when an object it refers to has no remote identifier, and
    then the first such object is named. -/
theorem FieldMap.firstUnbound_bind (ids : RemoteIds) (m : FieldMap) :
    FirstUnbound ids m.objectIds (m.bind ids) :=
  Field.firstUnbound_bindFields ids m

namespace Field

mutual

theorem objectIds_of_bind {ids : RemoteIds} :
    (f g : Field) → f.bind ids = .ok g → g.objectIds = []
  | .value v, g, h => by
    rw [Field.bind] at h
    cases hv : v.objectId? with
    | none =>
      rw [hv] at h
      obtain rfl := Except.ok.inj h
      rw [objectIds, hv]
      rfl
    | some id =>
      rw [hv] at h
      dsimp only at h
      cases hid : ids.get? id with
      | none =>
        rw [hid] at h
        cases h
      | some remote =>
        -- A fixed text stands in place of the reference
        rw [hid] at h
        obtain rfl := Except.ok.inj h
        rw [objectIds]
        rfl
  | .group fields, g, h => by
    rw [Field.bind] at h
    obtain ⟨bound, hbound, rfl⟩ := map_eq_ok h
    rw [objectIds]
    exact objectIdsOf_of_bindFields fields bound hbound
  | .items rows, g, h => by
    rw [Field.bind] at h
    obtain ⟨bound, hbound, rfl⟩ := map_eq_ok h
    rw [objectIds]
    exact objectIdsOfRows_of_bindRows rows bound hbound

theorem objectIdsOf_of_bindFields {ids : RemoteIds} :
    (m m' : List (String × Field)) → bindFields ids m = .ok m' → objectIdsOf m' = []
  | [], m', h => by
    rw [bindFields] at h
    obtain rfl := Except.ok.inj h
    rfl
  | (k, f) :: rest, m', h => by
    rw [bindFields] at h
    cases hf : f.bind ids with
    | error id =>
      rw [hf] at h
      cases h
    | ok g =>
      rw [hf] at h
      obtain ⟨bound, hbound, rfl⟩ := map_eq_ok h
      rw [objectIdsOf, objectIds_of_bind f g hf, objectIdsOf_of_bindFields rest bound hbound]
      rfl

theorem objectIdsOfRows_of_bindRows {ids : RemoteIds} :
    (rows rows' : List (List (String × Field))) →
      bindRows ids rows = .ok rows' → objectIdsOfRows rows' = []
  | [], rows', h => by
    rw [bindRows] at h
    obtain rfl := Except.ok.inj h
    rfl
  | row :: rest, rows', h => by
    rw [bindRows] at h
    cases hrow : bindFields ids row with
    | error id =>
      rw [hrow] at h
      cases h
    | ok row' =>
      rw [hrow] at h
      obtain ⟨bound, hbound, rfl⟩ := map_eq_ok h
      rw [objectIdsOfRows, objectIdsOf_of_bindFields row row' hrow,
        objectIdsOfRows_of_bindRows rest bound hbound]
      rfl

end

end Field

/-- A bound field tree refers to no object any more. -/
theorem FieldMap.objectIds_of_bind {ids : RemoteIds} {m m' : FieldMap} (h : m.bind ids = .ok m') :
    m'.objectIds = [] :=
  Field.objectIdsOf_of_bindFields m m' h

end ProfileMigration
