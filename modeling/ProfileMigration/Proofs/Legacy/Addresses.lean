/-
  ProfileMigration.Proofs.Legacy.Addresses

  The addresses that values of a definition denote:

    Network.cleared             -- a network without the bits behind its prefix
    Network.contains_cleared    -- it stands for the same addresses
    Net.AddressForm.Contains    -- the addresses that a text denotes
    Legacy.addressesAt?         -- what the text at a path denotes
    Legacy.value?_addresses_iff -- where addresses are declared, that is what is read there
-/
import ProfileMigration.Proofs.Legacy.Sources
import ProfileMigration.Proofs.Net.AddressText
import ProfileMigration.Proofs.Text.Integer

namespace ProfileMigration

/-! ## Networks -/

namespace Network

/-- The same network, named by its own base address. -/
def cleared : Network → Network
  | v4 a n => v4 (a &&& Net.mask 32 n) n
  | v6 a n => v6 (a &&& Net.mask 128 n) n

variable (n : Network)

theorem text_cleared : n.cleared.text = n.base.text ++ "/" ++ toString n.length := by
  cases n with
  | v4 a k => rfl
  | v6 a k => rfl

theorem isV6_cleared : n.cleared.isV6 = n.isV6 := by
  cases n with
  | v4 a k => rfl
  | v6 a k => rfl

/-- Its bits behind the prefix are cleared already. -/
theorem base_cleared : n.cleared.base = n.base := by
  cases n with
  | v4 a k => rw [cleared, base, base, BitVec.and_assoc, BitVec.and_self]
  | v6 a k => rw [cleared, base, base, BitVec.and_assoc, BitVec.and_self]

/-- It stands for the same addresses. -/
theorem contains_cleared (b : IpAddress) : n.cleared.Contains b ↔ n.Contains b := by
  cases n with
  | v4 a k =>
    cases b with
    | v4 b => rw [cleared, Contains, Contains, BitVec.and_assoc, BitVec.and_self]
    | v6 b => exact Iff.rfl
  | v6 a k =>
    cases b with
    | v4 b => exact Iff.rfl
    | v6 b => rw [cleared, Contains, Contains, BitVec.and_assoc, BitVec.and_self]

/-- An address by itself stands for no other one. -/
theorem contains_single (a b : IpAddress) : (single a).Contains b ↔ b = a := by
  have hfour : Net.mask 32 (32 : Fin 33) = BitVec.allOnes 32 := by decide
  have hsix : Net.mask 128 (128 : Fin 129) = BitVec.allOnes 128 := by decide
  cases a with
  | v4 a =>
    cases b with
    | v4 b =>
      rw [single, Contains, hfour, BitVec.and_allOnes, BitVec.and_allOnes, IpAddress.v4.injEq]
      exact eq_comm
    | v6 b => simp [single, Contains]
  | v6 a =>
    cases b with
    | v4 b => simp [single, Contains]
    | v6 b =>
      rw [single, Contains, hsix, BitVec.and_allOnes, BitVec.and_allOnes, IpAddress.v6.injEq]
      exact eq_comm

end Network

namespace Net.AddressForm

/-- The addresses that a text denotes: one, or those of a network. -/
def Contains : AddressForm → IpAddress → Prop
  | address a, b => b = a
  | network n, b => n.Contains b

/-- Their network. -/
def toNetwork : AddressForm → Network
  | address a => .single a
  | network n => n

theorem contains_toNetwork (form : AddressForm) (b : IpAddress) :
    form.toNetwork.Contains b ↔ form.Contains b := by
  cases form with
  | address a => exact Network.contains_single a b
  | network n => exact Iff.rfl

end Net.AddressForm

/-! ## Addresses in definitions -/

namespace Legacy

variable {hints : Hints} {key : String} {form : Net.AddressForm}

/-- What the text of the value at a path denotes, if it denotes addresses. -/
def addressesAt? (row : List (String × Json)) (field : String) : Option Net.AddressForm :=
  ((contentAt? row field).bind scalarText?).bind Net.parseAddress?

/-- The addresses that a literal is. -/
def addressForm? : Literal → Option Net.AddressForm
  | .address a => some (.address a)
  | .network n => some (.network n)
  | _ => none

theorem addressForm?_ofAddressForm (form : Net.AddressForm) :
    addressForm? (.ofAddressForm form) = some form := by
  cases form with
  | address a => rfl
  | network n => rfl

theorem ofAddressForm_injective {form form' : Net.AddressForm}
    (h : Literal.ofAddressForm form = Literal.ofAddressForm form') : form = form' := by
  have hforms := congrArg addressForm? h
  rw [addressForm?_ofAddressForm, addressForm?_ofAddressForm] at hforms
  exact Option.some.inj hforms

theorem ne_ofAddressForm {l : Literal} (h : addressForm? l = none) : l ≠ .ofAddressForm form := by
  rintro rfl
  rw [addressForm?_ofAddressForm] at h
  cases h

/-- Only a text that denotes addresses looks like one. -/
theorem undeclared_ne_ofAddressForm {j : Json} (h : (scalarText? j).bind Net.parseAddress? = none) :
    undeclared j ≠ .ofAddressForm form := by
  cases j with
  | null | bool _ | obj _ => exact ne_ofAddressForm rfl
  | num n =>
    rw [undeclared, Literal.ofNumber]
    split
    · exact ne_ofAddressForm rfl
    · exact ne_ofAddressForm rfl
  | str s =>
    rw [scalarText?, Option.bind_some, Net.parseAddress?, Text.trim_trim, ← Net.parseAddress?] at h
    rw [undeclared, inferText, h, truthOf]
    split
    · rename_i l hl
      split at hl
      · rw [← Option.some.inj hl]
        exact ne_ofAddressForm rfl
      · split at hl
        · rw [← Option.some.inj hl]
          exact ne_ofAddressForm rfl
        · cases hl
    · exact ne_ofAddressForm rfl
  | arr elements =>
    rw [undeclared, listLiteral?]
    split
    · exact ne_ofAddressForm rfl
    · cases elements.mapM Json.text? with
      | none => exact ne_ofAddressForm rfl
      | some ss => exact ne_ofAddressForm rfl

/-- Where addresses are declared, a value is read as addresses exactly if its text denotes them. -/
theorem leaf_eq_ofAddressForm_iff (hkind : hints.kind? key = some .address) {j : Json} :
    leaf hints key j = .ofAddressForm form ↔
      (scalarText? j).bind Net.parseAddress? = some form := by
  have hleaf : leaf hints key j = (coerce .address j).getD (undeclared j) := by
    rw [leaf, hkind, Option.bind_some]
    cases coerce .address j with
    | none => rfl
    | some l => rfl
  have hscalar : coerce .address j =
        ((scalarText? j).bind Net.parseAddress?).map Literal.ofAddressForm ∨
      (scalarText? j).bind Net.parseAddress? = none ∧
        ∀ l, coerce .address j = some l → l ≠ .ofAddressForm form := by
    cases j with
    | arr elements =>
      refine .inr ⟨rfl, fun l hl => ?_⟩
      obtain ⟨items, -, rfl⟩ := Option.map_eq_some_iff.mp hl
      exact ne_ofAddressForm rfl
    | null | bool _ | num _ | str _ | obj _ => exact .inl rfl
  rw [hleaf]
  rcases hscalar with hsame | ⟨hnone, hother⟩
  · rw [hsame]
    cases hform : (scalarText? j).bind Net.parseAddress? with
    | none =>
      rw [Option.map_none, Option.getD_none]
      exact iff_of_false (undeclared_ne_ofAddressForm hform) (Option.some_ne_none form).symm
    | some form' =>
      rw [Option.map_some, Option.getD_some, Option.some.injEq]
      exact ⟨ofAddressForm_injective, congrArg _⟩
  · rw [hnone]
    refine iff_of_false (fun h => ?_) (Option.some_ne_none form).symm
    cases hcoerce : coerce .address j with
    | none =>
      rw [hcoerce] at h
      exact absurd h (undeclared_ne_ofAddressForm hnone)
    | some l =>
      rw [hcoerce] at h
      exact absurd h (hother l hcoerce)

/-- What is ignored is not fixed, nor is a variable. -/
theorem not_fixed_of_wrapper {members : List (String × Json)} {type : String}
    (htype : wrapperType? members = some type) (hclosed : ¬ Transparent type) (l : Literal) :
    (normalizeField hints key (.obj members)).bind Field.value? ≠ some (.fixed l) := by
  rw [normalizeField, htype]
  dsimp only
  by_cases hvariable : type = "variableName" ∨ type = "variable"
  · rw [if_pos hvariable]
    rintro ⟨⟩
  · by_cases hignore : type = "ignore"
    · rw [if_neg hvariable, if_pos hignore]
      unfold ignored
      split
      · rintro ⟨⟩
      · rintro ⟨⟩
      · rintro ⟨⟩
      · rintro ⟨⟩
      · split
        · rintro ⟨⟩
        · rintro ⟨⟩
      · rintro ⟨⟩
    · exact absurd ⟨fun h => hvariable (.inl h), fun h => hvariable (.inr h), hignore⟩ hclosed

/-- What a value out of its wrappers configures is fixed to addresses exactly if its text denotes
    them. -/
theorem normalizeField_addresses_iff (hkind : hints.kind? key = some .address) {j settled : Json}
    (hj : unwrapped? j = some settled) :
    (normalizeField hints key settled).bind Field.value? = some (.fixed (.ofAddressForm form)) ↔
      (scalarText? settled).bind Net.parseAddress? = some form := by
  have hfixed : ∀ {l : Literal}, (some (Field.value (.fixed l))).bind Field.value? =
      some (.fixed (.ofAddressForm form)) ↔ l = .ofAddressForm form := by
    intro l
    rw [Option.bind_some, Field.value?, Option.some.injEq, TypedValue.fixed.injEq]
  cases settled with
  | null | bool _ | num _ | str _ =>
    exact hfixed.trans (leaf_eq_ofAddressForm_iff hkind)
  | arr elements =>
    rw [normalizeField]
    split
    · exact iff_of_false (Option.some_ne_none _).symm (Option.some_ne_none form).symm
    · exact hfixed.trans (leaf_eq_ofAddressForm_iff hkind)
  | obj members =>
    refine iff_of_false (fun h => ?_) (Option.some_ne_none form).symm
    cases htype : wrapperType? members with
    | none =>
      rw [normalizeField, htype] at h
      cases h
    | some type =>
      exact absurd h (not_fixed_of_wrapper htype (not_transparent_of_unwrapped j hj htype) _)

/-- The addresses at a path. -/
theorem value?_addresses_iff (hkind : hints.kind? key = some .address)
    {row : List (String × Json)} :
    (normalizeMembers hints row).value? key = some (.fixed (.ofAddressForm form)) ↔
      addressesAt? row key = some form := by
  rw [FieldMap.value?, field?_normalizeMembers, addressesAt?, contentAt?]
  cases hfound : find? row key with
  | none => exact iff_of_false (Option.some_ne_none _).symm (Option.some_ne_none form).symm
  | some found =>
    rw [Option.bind_some, Option.bind_some, normalizeField_unwrapped]
    cases hsettled : unwrapped? found.2 with
    | none => exact iff_of_false (Option.some_ne_none _).symm (Option.some_ne_none form).symm
    | some settled =>
      refine normalizeField_addresses_iff ?_ hsettled
      rw [Hints.kind?, leaf_of_find? hfound]
      exact hkind

end Legacy

end ProfileMigration
