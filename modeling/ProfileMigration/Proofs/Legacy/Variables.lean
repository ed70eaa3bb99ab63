/-
  ProfileMigration.Proofs.Legacy.Variables

  The device variables of legacy definitions:

    Legacy.variableNames            -- the names of the variables in a definition
    Legacy.refersOnly_normalize     -- a normalised definition refers to nothing else
-/
import ProfileMigration.Legacy.Normalize
import ProfileMigration.Proofs.Field.ReferenceBounds

namespace ProfileMigration.Legacy

/-! ## Names of variables -/

mutual

/-- The names of the variables in a member, which is called like its variable if that has no
    name of its own. -/
def variablesOfMember (key : String) : Json → List String
  | .obj members =>
    match wrapperType? members with
    | none => variablesOfMembers members
    | some type =>
      if type = "variableName" ∨ type = "variable" then [variableName key members]
      else if type = "ignore" then []
      else variablesOfWrapped key members
  | .arr elements =>
    if elements ≠ [] ∧ elements.all Json.isObject then variablesOfRows elements else []
  | _ => []

/-- The names of the variables in the value of a wrapper. -/
def variablesOfWrapped (key : String) : List (String × Json) → List String
  | [] => []
  | (k, j) :: rest =>
    if k = "vipValue" then variablesOfMember key j else variablesOfWrapped key rest

/-- The names of the variables in an object. -/
def variablesOfMembers : List (String × Json) → List String
  | [] => []
  | (k, j) :: rest =>
    if k ∈ metaKeys then variablesOfMembers rest
    else variablesOfMember k j ++ variablesOfMembers rest

/-- The names of the variables in a list of objects. -/
def variablesOfRows : List Json → List String
  | [] => []
  | .obj members :: rest => variablesOfMembers members ++ variablesOfRows rest
  | _ :: rest => variablesOfRows rest

end

/-- The names of the variables in a definition. -/
def variableNames : Json → List String
  | .obj members => variablesOfMembers members
  | _ => []

/-! ## Variables are all that a normalised definition refers to -/

variable {S : Uuid → Prop}

/-- The names that read as identifiers read as ones of a given kind. -/
def NamesOnly (S : Uuid → Prop) (names : List String) : Prop :=
  ∀ name ∈ names, ∀ id, Uuid.ofText? name = some id → S id

theorem refersOnly_of_value {v : TypedValue} (hv : v.RefersOnly S) {f : Field}
    (hf : some (Field.value v) = some f) : f.RefersOnly S := by
  obtain rfl := Option.some.inj hf
  exact Field.refersOnly_value_iff.mpr hv

/-- An ignored value is a default, which refers to nothing. -/
theorem refersOnly_ignored (hints : Hints) (key : String) (j? : Option Json) {f : Field}
    (hf : ignored hints key j? = some f) : f.RefersOnly S := by
  unfold ignored at hf
  split at hf
  · cases hf
  · cases hf
  · exact refersOnly_of_value (TypedValue.refersOnly_inherited _) hf
  · exact refersOnly_of_value (TypedValue.refersOnly_inherited _) hf
  · split at hf
    · exact refersOnly_of_value (TypedValue.refersOnly_inherited _) hf
    · exact refersOnly_of_value (TypedValue.refersOnly_inherited _) hf
  · exact refersOnly_of_value (TypedValue.refersOnly_inherited _) hf

mutual

theorem refersOnly_normalizeField (hints : Hints) (key : String) :
    (j : Json) → NamesOnly S (variablesOfMember key j) → ∀ {f : Field},
      normalizeField hints key j = some f → f.RefersOnly S
  | .obj members, hnames, f, hf => by
    rw [normalizeField] at hf
    rw [variablesOfMember] at hnames
    cases htype : wrapperType? members with
    | none =>
      rw [htype] at hf hnames
      obtain rfl := Option.some.inj hf
      exact Field.refersOnly_group_iff.mpr (refersOnly_normalizeMembers hints members hnames)
    | some type =>
      rw [htype] at hf hnames
      dsimp only at hf hnames
      by_cases hvariable : type = "variableName" ∨ type = "variable"
      · rw [if_pos hvariable] at hf hnames
        -- The one value that may refer to something is a variable
        have hname : (TypedValue.reference (variableName key members)).RefersOnly S :=
          hnames _ (List.mem_singleton.mpr rfl)
        exact refersOnly_of_value hname hf
      · -- An ignored value and one that is given have no name of their own
        rw [if_neg hvariable] at hf hnames
        by_cases hignore : type = "ignore"
        · rw [if_pos hignore] at hf
          exact refersOnly_ignored hints key _ hf
        · rw [if_neg hignore] at hf hnames
          exact refersOnly_normalizeWrapped hints key members hnames hf
  | .arr elements, hnames, f, hf => by
    rw [normalizeField] at hf
    rw [variablesOfMember] at hnames
    by_cases hrows : elements ≠ [] ∧ elements.all Json.isObject
    · rw [if_pos hrows] at hf hnames
      obtain rfl := Option.some.inj hf
      exact Field.refersOnly_items_iff.mpr (refersOnly_normalizeRows hints elements hnames)
    · rw [if_neg hrows] at hf
      exact refersOnly_of_value (TypedValue.refersOnly_fixed _) hf
  | .null, _, f, hf | .bool _, _, f, hf | .num _, _, f, hf | .str _, _, f, hf => by
    unfold normalizeField at hf
    exact refersOnly_of_value (TypedValue.refersOnly_fixed _) hf

theorem refersOnly_normalizeWrapped (hints : Hints) (key : String) :
    (members : List (String × Json)) → NamesOnly S (variablesOfWrapped key members) →
      ∀ {f : Field}, normalizeWrapped hints key members = some f → f.RefersOnly S
  | [], _, f, hf => by
    rw [normalizeWrapped] at hf
    cases hf
  | (k, j) :: rest, hnames, f, hf => by
    rw [normalizeWrapped] at hf
    rw [variablesOfWrapped] at hnames
    by_cases hvalue : k = "vipValue"
    · rw [if_pos hvalue] at hf hnames
      exact refersOnly_normalizeField hints key j hnames hf
    · rw [if_neg hvalue] at hf hnames
      exact refersOnly_normalizeWrapped hints key rest hnames hf

theorem refersOnly_normalizeMembers (hints : Hints) :
    (members : List (String × Json)) → NamesOnly S (variablesOfMembers members) →
      FieldMap.RefersOnly S (normalizeMembers hints members)
  | [], _ => by
    rw [normalizeMembers]
    exact FieldMap.refersOnly_nil
  | (k, j) :: rest, hnames => by
    rw [normalizeMembers]
    rw [variablesOfMembers] at hnames
    by_cases hmeta : k ∈ metaKeys
    · rw [if_pos hmeta] at hnames ⊢
      exact refersOnly_normalizeMembers hints rest hnames
    · rw [if_neg hmeta] at hnames ⊢
      have hrest := refersOnly_normalizeMembers hints rest
        fun name hname => hnames name (List.mem_append_right _ hname)
      cases hf : normalizeField hints k j with
      | none => exact hrest
      | some f =>
        exact FieldMap.refersOnly_cons_iff.mpr ⟨refersOnly_normalizeField hints k j
          (fun name hname => hnames name (List.mem_append_left _ hname)) hf, hrest⟩

theorem refersOnly_normalizeRows (hints : Hints) :
    (elements : List Json) → NamesOnly S (variablesOfRows elements) →
      ∀ row ∈ normalizeRows hints elements, FieldMap.RefersOnly S row
  | [], _ => by
    rw [normalizeRows]
    exact nofun
  | .obj members :: rest, hnames => by
    rw [normalizeRows]
    rw [variablesOfRows] at hnames
    rw [List.forall_mem_cons]
    exact ⟨refersOnly_normalizeMembers hints members
        fun name hname => hnames name (List.mem_append_left _ hname),
      refersOnly_normalizeRows hints rest
        fun name hname => hnames name (List.mem_append_right _ hname)⟩
  | .null :: rest, hnames | .bool _ :: rest, hnames | .num _ :: rest, hnames
  | .str _ :: rest, hnames | .arr _ :: rest, hnames => by
    unfold normalizeRows
    unfold variablesOfRows at hnames
    exact refersOnly_normalizeRows hints rest hnames

end

/-- A normalised definition refers to what its variables are called, and to nothing else. -/
theorem refersOnly_normalize (hints : Hints) {definition : Json}
    (hnames : NamesOnly S (variableNames definition)) :
    FieldMap.RefersOnly S (normalize hints definition) := by
  unfold normalize
  cases definition with
  | obj members => exact refersOnly_normalizeMembers hints members hnames
  | null | bool _ | num _ | str _ | arr _ => exact FieldMap.refersOnly_nil

end ProfileMigration.Legacy
