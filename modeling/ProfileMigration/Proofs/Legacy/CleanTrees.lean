/-
  ProfileMigration.Proofs.Legacy.CleanTrees

  What normalised definitions are free of:

    FieldMap.StandsAt           -- a field stands at a place of a tree
    Legacy.SaysAt               -- what the value at a place of a definition stands for
    Literal.IsScalar            -- a literal that is neither a list nor raw
    Legacy.Unrecognised         -- null, and arrays that no rule has a literal or items for
    Legacy.CleanField           -- one field, as made of one value
    Legacy.saysAt_of_standsAt   -- every field is made of the value at its own place
    Legacy.clean_normalize      -- so that a whole tree is clean

  Integers past the signed range are none to a list: `Legacy.raw_list_of_integers`.
-/
import ProfileMigration.Proofs.Legacy.Integers
import ProfileMigration.Proofs.Sequence.Traverse

namespace ProfileMigration

/-! ## Places -/

/-- One step into a tree: under a name, or to one of the items there. -/
inductive Step where
  | under (key : String)
  | item (i : Nat)
deriving DecidableEq

/-- A field stands at a place of a tree. -/
inductive FieldMap.StandsAt (f : Field) : List Step → FieldMap → Prop where
  | here {m : FieldMap} {key : String} (h : (key, f) ∈ m) : StandsAt f [.under key] m
  | group {m fields : FieldMap} {key : String} {place : List Step} (h : (key, .group fields) ∈ m)
      (hf : StandsAt f place fields) : StandsAt f (.under key :: place) m
  | item {m row : FieldMap} {key : String} {rows : List FieldMap} {i : Nat} {place : List Step}
      (h : (key, .items rows) ∈ m) (hrow : rows[i]? = some row) (hf : StandsAt f place row) :
      StandsAt f (.under key :: .item i :: place) m

/-- A literal that is neither a list nor raw. -/
def Literal.IsScalar : Literal → Prop
  | .list _ | .raw _ => False
  | _ => True

namespace Legacy

/-- What the value at a place of a definition stands for, out of its wrappers. -/
inductive SaysAt (j : Json) : List Step → List (String × Json) → Prop where
  | here {members : List (String × Json)} {key : String} {value : Json}
      (h : (key, value) ∈ members) (hj : unwrapped? value = some j) : SaysAt j [.under key] members
  | object {members inner : List (String × Json)} {key : String} {value : Json} {place : List Step}
      (h : (key, value) ∈ members) (hinner : object? value = some inner)
      (hj : SaysAt j place inner) : SaysAt j (.under key :: place) members
  | element {members inner : List (String × Json)} {key : String} {value : Json} {i : Nat}
      {place : List Step} (h : (key, value) ∈ members) (hinner : (objects value)[i]? = some inner)
      (hj : SaysAt j place inner) : SaysAt j (.under key :: .item i :: place) members

variable {hints : Hints} {key : String} {j : Json} {l : Literal}

/-! ## Single values -/

/-- Null, or an array that is neither a list of signed 64-bit integers, nor a list of texts, nor a
    non-empty list of objects. -/
def Unrecognised : Json → Prop
  | .null => True
  | .arr elements =>
    (¬ ∀ e ∈ elements, ∃ n, e = .ofInt64 n) ∧ (¬ ∀ e ∈ elements, ∃ s, e = .str s) ∧
      ¬ (elements ≠ [] ∧ ∀ e ∈ elements, ∃ members, e = .obj members)
  | _ => False

/-- A scalar or a list of scalars. -/
def Typed (l : Literal) : Prop :=
  l.IsScalar ∨ ∃ items, l = .list items ∧ ∀ item ∈ items, item.IsScalar

theorem isScalar_ofAddressForm (form : Net.AddressForm) :
    (Literal.ofAddressForm form).IsScalar := by
  cases form with
  | address | network => trivial

theorem isScalar_truthOf {s : String} (h : truthOf s = some l) : l.IsScalar := by
  rw [truthOf] at h
  split at h
  · obtain rfl := Option.some.inj h
    trivial
  · split at h
    · obtain rfl := Option.some.inj h
      trivial
    · cases h

theorem isScalar_integerOf {n : Number} (h : integerOf n = some l) : l.IsScalar := by
  rw [integerOf] at h
  split at h
  · obtain rfl := Option.some.inj h
    trivial
  · split at h
    · obtain rfl := Option.some.inj h
      trivial
    · cases h

theorem isScalar_of_map {α : Type} {make : α → Literal} {a? : Option α}
    (h : a?.map make = some l) (hmake : ∀ a, (make a).IsScalar) : l.IsScalar := by
  obtain ⟨a, -, rfl⟩ := Option.map_eq_some_iff.mp h
  exact hmake a

/-- As a declared kind, a single value is neither a list nor raw. -/
theorem isScalar_coerceScalar {kind : FieldKind} (h : coerceScalar kind j = some l) :
    l.IsScalar := by
  unfold coerceScalar at h
  split at h
  · obtain ⟨s, -, hs⟩ := Option.bind_eq_some_iff.mp h
    exact isScalar_of_map hs fun _ => trivial
  · split at h
    · exact isScalar_integerOf h
    · exact isScalar_of_map h fun _ => trivial
  · split at h
    · obtain rfl := Option.some.inj h
      trivial
    · exact isScalar_of_map h fun _ => trivial
  · split at h
    · obtain rfl := Option.some.inj h
      trivial
    · obtain ⟨s, -, hs⟩ := Option.bind_eq_some_iff.mp h
      exact isScalar_truthOf hs
  · exact isScalar_of_map h isScalar_ofAddressForm
  · exact isScalar_of_map h fun _ => trivial

theorem isScalar_inferText (s : String) : (inferText s).IsScalar := by
  rcases inferText_cases s with ⟨b, hb⟩ | ⟨form, hform⟩ | hs
  · rw [hb]
    trivial
  · rw [hform]
    exact isScalar_ofAddressForm form
  · rw [hs]
    trivial

/-- A text, a number or a truth value is a scalar, whatever is declared. -/
theorem isScalar_leaf (hints : Hints) (key : String) (hj : (scalarText? j).isSome) :
    (leaf hints key j).IsScalar := by
  rw [leaf]
  split
  · rename_i l hl
    obtain ⟨kind, -, hcoerce⟩ := Option.bind_eq_some_iff.mp hl
    cases j with
    | bool | num | str => exact isScalar_coerceScalar hcoerce
    | null | arr | obj => cases hj
  · cases j with
    | bool => trivial
    | num n =>
      rw [undeclared, Literal.ofNumber]
      split
      · trivial
      · trivial
    | str s => exact isScalar_inferText s
    | null | arr | obj => cases hj

/-! ## Lists -/

/-- A list of integers or texts is a list of scalars. -/
theorem typed_listLiteral {elements : List Json} (h : listLiteral? elements = some l) :
    Typed l := by
  have hscalars : ∀ {α : Type} (make : α → Literal) (as : List α), (∀ a, (make a).IsScalar) →
      Typed (.list (as.map make)) := by
    intro α make as hmake
    refine .inr ⟨_, rfl, fun item hitem => ?_⟩
    obtain ⟨a, -, rfl⟩ := List.mem_map.mp hitem
    exact hmake a
  rw [listLiteral?] at h
  split at h
  · obtain rfl := Option.some.inj h
    exact hscalars _ _ fun _ => trivial
  · obtain ⟨ss, -, rfl⟩ := Option.map_eq_some_iff.mp h
    exact hscalars _ _ fun _ => trivial

/-- Where there is no such literal, some element is no integer, and some is no text. -/
theorem of_listLiteral_eq_none {elements : List Json} (h : listLiteral? elements = none) :
    (¬ ∀ e ∈ elements, ∃ n, e = .ofInt64 n) ∧ ¬ ∀ e ∈ elements, ∃ s, e = .str s := by
  rw [listLiteral?] at h
  constructor
  · intro hall
    have hread : (elements.mapM Json.int64?).isSome := by
      refine isSome_mapM fun e he => ?_
      obtain ⟨n, rfl⟩ := hall e he
      rw [Json.ofInt64, Json.int64?, Number.toInt64?, ExactInt.ofInt64, if_pos n.toInt_le]
      rfl
    obtain ⟨ns, hns⟩ := Option.isSome_iff_exists.mp hread
    rw [hns] at h
    cases h
  · intro hall
    have hread : (elements.mapM Json.text?).isSome := by
      refine isSome_mapM fun e he => ?_
      obtain ⟨s, rfl⟩ := hall e he
      rfl
    obtain ⟨ss, hss⟩ := Option.isSome_iff_exists.mp hread
    split at h
    · cases h
    · rw [hss] at h
      cases h

/-- The literal of a list that is not one of objects: typed, or the list itself if no rule has a
    literal for it. -/
theorem leaf_list {elements : List Json} (hints : Hints) (key : String)
    (hobjects : ¬ (elements ≠ [] ∧ elements.all Json.isObject)) :
    Typed (leaf hints key (.arr elements)) ∨
      leaf hints key (.arr elements) = .raw (.arr elements) ∧ Unrecognised (.arr elements) := by
  rw [leaf]
  split
  · rename_i l hl
    obtain ⟨kind, -, hcoerce⟩ := Option.bind_eq_some_iff.mp hl
    obtain ⟨items, hitems, rfl⟩ := Option.map_eq_some_iff.mp hcoerce
    refine .inl (.inr ⟨items, rfl, fun item hitem => ?_⟩)
    obtain ⟨e, -, he⟩ := exists_of_mem_mapM hitems item hitem
    exact isScalar_coerceScalar he
  · rw [undeclared]
    cases hlist : listLiteral? elements with
    | some l => exact .inl (typed_listLiteral hlist)
    | none =>
      obtain ⟨hintegers, htexts⟩ := of_listLiteral_eq_none hlist
      refine .inr ⟨rfl, hintegers, htexts, ?_⟩
      rintro ⟨hne, hall⟩
      refine hobjects ⟨hne, List.all_eq_true.mpr fun e he => ?_⟩
      obtain ⟨members, rfl⟩ := hall e he
      rfl

/-! ## Single fields -/

/-- A field as made of a value: items are some, the literal of a fixed value is typed, or it is the
    value itself where no rule recognises that, and a default is a scalar. -/
def CleanField (j : Json) : Field → Prop
  | .items rows => rows ≠ []
  | .value (.fixed l) => Typed l ∨ l = .raw j ∧ Unrecognised j
  | .value (.inherited (some l)) => l.IsScalar
  | .value (.inherited none) | .value (.reference _) | .group _ => True

theorem clean_ignored {j? : Option Json} {f : Field} (h : ignored hints key j? = some f) :
    CleanField j f := by
  unfold ignored at h
  split at h
  · cases h
  · cases h
  · obtain rfl := Option.some.inj h
    trivial
  · obtain rfl := Option.some.inj h
    trivial
  · split at h
    · obtain rfl := Option.some.inj h
      trivial
    · obtain rfl := Option.some.inj h
      exact isScalar_leaf hints key rfl
  · rename_i j' hnull harr hobj hstr
    obtain rfl := Option.some.inj h
    -- What is left are truth values and numbers
    cases j' with
    | bool | num => exact isScalar_leaf hints key rfl
    | null | arr | obj | str => simp_all

/-- What a value out of its wrappers configures is clean. -/
theorem clean_of_unwrapped {value : Json} {f : Field} (hj : unwrapped? value = some j)
    (hf : normalizeField hints key j = some f) : CleanField j f := by
  cases j with
  | obj members =>
    rw [normalizeField] at hf
    cases htype : wrapperType? members with
    | none =>
      rw [htype] at hf
      obtain rfl := Option.some.inj hf
      trivial
    | some type =>
      rw [htype] at hf
      dsimp only at hf
      split at hf
      · obtain rfl := Option.some.inj hf
        trivial
      · rename_i hvariable
        split at hf
        · exact clean_ignored hf
        · rename_i hignore
          exact absurd ⟨fun h => hvariable (.inl h), fun h => hvariable (.inr h), hignore⟩
            (not_transparent_of_unwrapped value hj htype)
  | arr elements =>
    rw [normalizeField] at hf
    split at hf
    · rename_i hrows
      obtain rfl := Option.some.inj hf
      obtain ⟨hne, hall⟩ := hrows
      obtain ⟨e, rest, rfl⟩ := List.exists_cons_of_ne_nil hne
      cases e with
      | obj members => exact List.cons_ne_nil _ _
      | null | bool | num | str | arr => cases hall
    · rename_i hrows
      obtain rfl := Option.some.inj hf
      exact leaf_list hints key hrows
  | bool | num | str =>
    obtain rfl := Option.some.inj hf
    exact .inl (.inl (isScalar_leaf hints key rfl))
  | null =>
    obtain rfl := Option.some.inj hf
    rw [CleanField, leaf]
    split
    · rename_i l hl
      obtain ⟨kind, -, hcoerce⟩ := Option.bind_eq_some_iff.mp hl
      exact .inl (.inl (isScalar_coerceScalar hcoerce))
    · exact .inr ⟨rfl, trivial⟩

/-! ## Whole trees -/

/-- A field under a name is what one of the members with that name configures. -/
theorem of_mem_normalizeMembers {members : List (String × Json)} {f : Field}
    (h : (key, f) ∈ normalizeMembers hints members) :
    key ∉ metaKeys ∧ ∃ value, (key, value) ∈ members ∧ normalizeField hints key value = some f := by
  induction members with
  | nil => cases h
  | cons member rest ih =>
    obtain ⟨k, value⟩ := member
    have hlater : (key, f) ∈ normalizeMembers hints rest → key ∉ metaKeys ∧
        ∃ value', (key, value') ∈ (k, value) :: rest ∧
          normalizeField hints key value' = some f := by
      intro hrest
      obtain ⟨hmeta, value', hmem, hvalue'⟩ := ih hrest
      exact ⟨hmeta, value', List.mem_cons_of_mem _ hmem, hvalue'⟩
    rw [normalizeMembers] at h
    split at h
    · exact hlater h
    · rename_i hmeta
      split at h
      · rename_i g hg
        rcases List.mem_cons.mp h with hhere | hrest
        · obtain ⟨rfl, rfl⟩ := Prod.mk.inj hhere
          exact ⟨hmeta, value, List.mem_cons_self, hg⟩
        · exact hlater hrest
      · exact hlater h

/-- Items are the objects of a list, normalised. -/
theorem rows_of_normalizeField {value : Json} {rows : List FieldMap}
    (h : normalizeField hints key value = some (.items rows)) :
    rows = (objects value).map (normalizeMembers hints) := by
  rcases normalizeField_cases hints key value with ⟨inner, -, hf⟩ | ⟨-, hf⟩ | ⟨-, -, hvalue⟩
  · cases hf.symm.trans h
  · exact Field.items.inj (Option.some.inj (h.symm.trans hf))
  · obtain ⟨v, hv⟩ := hvalue _ h
    cases hv

/-- Wherever a field stands in a tree, no step there goes under a name that configures nothing, and
    the field is made of what the value at the same place of the definition stands for. -/
theorem saysAt_of_standsAt {members : List (String × Json)} {place : List Step} {f : Field}
    (h : (normalizeMembers hints members).StandsAt f place) :
    (∀ key, .under key ∈ place → key ∉ metaKeys) ∧
      ∃ j, SaysAt j place members ∧ CleanField j f := by
  generalize htree : normalizeMembers hints members = tree at h
  induction h generalizing members with
  | here h =>
    subst htree
    obtain ⟨hmeta, value, hmem, hvalue⟩ := of_mem_normalizeMembers h
    rw [normalizeField_unwrapped] at hvalue
    obtain ⟨j, hj, hf⟩ := Option.bind_eq_some_iff.mp hvalue
    refine ⟨fun key hkey => ?_, j, .here hmem hj, clean_of_unwrapped hj hf⟩
    rwa [Step.under.inj (List.mem_singleton.mp hkey)]
  | @group _ _ name _ h _ ih =>
    subst htree
    obtain ⟨hmeta, value, hmem, hvalue⟩ := of_mem_normalizeMembers h
    have hgroup := group?_normalizeField hints name value
    rw [hvalue] at hgroup
    obtain ⟨inner, hinner, hfields⟩ := Option.map_eq_some_iff.mp hgroup.symm
    obtain ⟨hnames, j, hj, hf⟩ := ih hfields
    refine ⟨fun key hkey => ?_, j, .object hmem hinner hj, hf⟩
    rcases List.mem_cons.mp hkey with hkey | hkey
    · rwa [Step.under.inj hkey]
    · exact hnames key hkey
  | item h hrow _ ih =>
    subst htree
    obtain ⟨hmeta, value, hmem, hvalue⟩ := of_mem_normalizeMembers h
    rw [rows_of_normalizeField hvalue, List.getElem?_map] at hrow
    obtain ⟨inner, hinner, hfields⟩ := Option.map_eq_some_iff.mp hrow
    obtain ⟨hnames, j, hj, hf⟩ := ih hfields
    refine ⟨fun key hkey => ?_, j, .element hmem hinner hj, hf⟩
    rcases List.mem_cons.mp hkey with hkey | hkey
    · rwa [Step.under.inj hkey]
    · rcases List.mem_cons.mp hkey with hkey | hkey
      · cases hkey
      · exact hnames key hkey

/-- A tree that is clean beside the definition it is made of. -/
structure Clean (definition : Json) (tree : FieldMap) : Prop where
  /-- No name at any depth describes the definition. -/
  names : ∀ place f, tree.StandsAt f place → ∀ key, .under key ∈ place → key ∉ metaKeys
  items : ∀ place rows, tree.StandsAt (.items rows) place → rows ≠ []
  /-- A fixed literal is a scalar or a list of scalars, or else it is raw as a whole: the value at
      its place, unchanged, which no rule recognises. -/
  fixed : ∀ place l, tree.StandsAt (.value (.fixed l)) place →
    l.IsScalar ∨ (∃ items, l = .list items ∧ ∀ item ∈ items, item.IsScalar) ∨
      ∃ members j, definition = .obj members ∧ SaysAt j place members ∧ l = .raw j ∧ Unrecognised j
  inherited : ∀ place l, tree.StandsAt (.value (.inherited (some l))) place → l.IsScalar

/-- Normalising leaves only clean trees. -/
theorem clean_normalize (hints : Hints) (definition : Json) :
    Clean definition (normalize hints definition) := by
  cases definition with
  | obj members =>
    refine ⟨fun place f h => (saysAt_of_standsAt h).1, fun place rows h => ?_,
      fun place l h => ?_, fun place l h => ?_⟩
    · obtain ⟨-, j, -, hrows⟩ := saysAt_of_standsAt h
      exact hrows
    · obtain ⟨-, j, hj, htyped | ⟨hraw, hunrecognised⟩⟩ := saysAt_of_standsAt h
      · exact or_assoc.mp (.inl htyped)
      · exact .inr (.inr ⟨members, j, rfl, hj, hraw, hunrecognised⟩)
    · obtain ⟨-, j, -, hscalar⟩ := saysAt_of_standsAt h
      exact hscalar
  | null | bool | num | str | arr =>
    have hnone : ∀ place f, ¬ FieldMap.StandsAt f place [] := by
      intro place f h
      cases h with
      | here h | group h _ | item h _ _ => cases h
    exact ⟨fun _ _ h => absurd h (hnone _ _), fun _ _ h => absurd h (hnone _ _),
      fun _ _ h => absurd h (hnone _ _), fun _ _ h => absurd h (hnone _ _)⟩

/-- The largest integer of a document. -/
def largestInteger : Json := .num (.int ⟨(UInt64.size - 1 : Nat), by decide, by decide⟩)

/-- It does not fit in sixty-four bits with a sign, so that a list of it stays raw. -/
theorem raw_list_of_integers :
    (∀ e ∈ [largestInteger], ∃ n : ExactInt, e = .num (.int n)) ∧
    FieldMap.StandsAt (.value (.fixed (.raw (.arr [largestInteger])))) [.under "x"]
      (normalize [] (.obj [("x", .arr [largestInteger])])) := by
  refine ⟨List.forall_mem_singleton.mpr ⟨_, rfl⟩, .here ?_⟩
  decide +kernel

end Legacy

end ProfileMigration
