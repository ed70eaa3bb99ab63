/-
  ProfileMigration.Proofs.Legacy.Rewriting

  Definitions in which the values of some members have been exchanged:

    Legacy.Rewrites                 -- a value, and the same with members rewritten at any depth
    Legacy.RewritesMembers          -- the same for the members of an object
    Legacy.normalizeMembers_rewrites -- rewriting by values that configure the same under the name
                                       of their member leaves the field tree as it is

  The rewritten members stand in plain objects, in the objects of a list, and in what wrappers
  stand for. The value of a variable or of an ignored member is no such place.
-/
import ProfileMigration.Legacy.Normalize
import ProfileMigration.Proofs.Text.KeyedLookup

namespace ProfileMigration.Legacy

/-- A type of wrappers that stand for the value in them. -/
def Transparent (type : String) : Prop :=
  type ≠ "variableName" ∧ type ≠ "variable" ∧ type ≠ "ignore"

instance (type : String) : Decidable (Transparent type) :=
  inferInstanceAs (Decidable (_ ∧ _))

/-! ## Rewriting -/

mutual

/-- The value of a member with a given name, rewritten in any number of places. -/
inductive Rewrites (R : String → Json → Json → Prop) : String → Json → Json → Prop where
  | same (key : String) (j : Json) : Rewrites R key j j
  /-- The value itself is exchanged, after what is in it. -/
  | step {key : String} {j j' j'' : Json} (h : Rewrites R key j j') (hstep : R key j' j'') :
      Rewrites R key j j''
  | object {key : String} {members members' : List (String × Json)}
      (hplain : wrapperType? members = none) (h : RewritesMembers R members members') :
      Rewrites R key (.obj members) (.obj members')
  | list {key : String} {elements elements' : List Json}
      (h : RewritesRows R elements elements') : Rewrites R key (.arr elements) (.arr elements')
  /-- What is in a wrapper goes by the name of the wrapper. -/
  | inside {key type : String} {j j' : Json} {before after : List (String × Json)}
      (htype : wrapperType? (before ++ ("vipValue", j) :: after) = some type)
      (htransparent : Transparent type) (hfirst : ∀ e ∈ before, e.1 ≠ "vipValue")
      (h : Rewrites R key j j') :
      Rewrites R key (.obj (before ++ ("vipValue", j) :: after))
        (.obj (before ++ ("vipValue", j') :: after))

/-- The members of an object, rewritten under their names. -/
inductive RewritesMembers (R : String → Json → Json → Prop) :
    List (String × Json) → List (String × Json) → Prop where
  | nil : RewritesMembers R [] []
  | cons {key : String} {j j' : Json} {rest rest' : List (String × Json)}
      (h : Rewrites R key j j') (hrest : RewritesMembers R rest rest') :
      RewritesMembers R ((key, j) :: rest) ((key, j') :: rest')

/-- The objects of a list that holds nothing else, rewritten in place. -/
inductive RewritesRows (R : String → Json → Json → Prop) : List Json → List Json → Prop where
  | nil : RewritesRows R [] []
  | cons {members members' : List (String × Json)} {rest rest' : List Json}
      (h : RewritesMembers R members members') (hrest : RewritesRows R rest rest') :
      RewritesRows R (.obj members :: rest) (.obj members' :: rest')

end

variable {R : String → Json → Json → Prop} {hints : Hints}

/-! ## What stays as it was -/

/-- What is no text does not become one, as long as no exchange makes one of it. -/
theorem Rewrites.text?_eq_none {key : String} (hR : ∀ j j', R key j j' → j.text? = none →
    j'.text? = none) : ∀ {j j' : Json}, Rewrites R key j j' → j.text? = none → j'.text? = none
  | _, _, .same _ _, hj => hj
  | _, _, .step h hstep, hj => hR _ _ hstep (h.text?_eq_none hR hj)
  | _, _, .object _ _, _ => rfl
  | _, _, .list _, _ => rfl
  | _, _, .inside _ _ _ _, _ => rfl

/-- A member of a rewritten object is the rewritten member. -/
theorem RewritesMembers.get? (name : String) : ∀ {members members' : List (String × Json)},
    RewritesMembers R members members' →
      Option.Rel (Rewrites R name) (Keyed.get? name members) (Keyed.get? name members')
  | _, _, .nil => .none
  | (key, _) :: _, _, .cons h hrest => by
    by_cases hkey : key = name
    · subst hkey
      rw [Keyed.get?_cons_self, Keyed.get?_cons_self]
      exact .some h
    · rw [Keyed.get?_cons_of_ne hkey, Keyed.get?_cons_of_ne hkey]
      exact hrest.get? name

/-- A plain object stays one. -/
theorem RewritesMembers.wrapperType?_eq_none {members members' : List (String × Json)}
    (hR : ∀ j j', R "vipType" j j' → j.text? = none → j'.text? = none)
    (h : RewritesMembers R members members') (hplain : wrapperType? members = none) :
    wrapperType? members' = none := by
  rw [wrapperType?] at hplain ⊢
  have hget := h.get? "vipType"
  generalize Keyed.get? "vipType" members = j? at hplain hget
  generalize Keyed.get? "vipType" members' = j'? at hget ⊢
  cases hget with
  | none => rfl
  | some h => exact h.text?_eq_none hR hplain

/-! ## What wrappers stand for -/

variable {before after : List (String × Json)}

/-- The type of a wrapper does not depend on what is in it. -/
theorem wrapperType?_inside (j j' : Json) :
    wrapperType? (before ++ ("vipValue", j') :: after) =
      wrapperType? (before ++ ("vipValue", j) :: after) := by
  rw [wrapperType?, wrapperType?]
  refine congrArg (Option.bind · Json.text?) ?_
  induction before with
  | nil =>
    rw [List.nil_append, List.nil_append, Keyed.get?_cons_of_ne (by decide),
      Keyed.get?_cons_of_ne (by decide)]
  | cons e rest ih =>
    rw [List.cons_append, List.cons_append, Keyed.get?, Keyed.get?, ih]

theorem normalizeWrapped_inside (key : String) (hfirst : ∀ e ∈ before, e.1 ≠ "vipValue")
    (j : Json) : normalizeWrapped hints key (before ++ ("vipValue", j) :: after) =
      normalizeField hints key j := by
  induction before with
  | nil => rw [List.nil_append, normalizeWrapped, if_pos rfl]
  | cons e rest ih =>
    obtain ⟨hne, hrest⟩ := List.forall_mem_cons.mp hfirst
    rw [List.cons_append, normalizeWrapped, if_neg hne, ih hrest]

/-- A wrapper configures what is in it. -/
theorem normalizeField_inside {type : String} (key : String) {j : Json}
    (htype : wrapperType? (before ++ ("vipValue", j) :: after) = some type)
    (htransparent : Transparent type) (hfirst : ∀ e ∈ before, e.1 ≠ "vipValue") :
    normalizeField hints key (.obj (before ++ ("vipValue", j) :: after)) =
      normalizeField hints key j := by
  obtain ⟨hname, hvariable, hignore⟩ := htransparent
  rw [normalizeField, htype]
  dsimp only
  rw [if_neg (not_or.mpr ⟨hname, hvariable⟩), if_neg hignore, normalizeWrapped_inside key hfirst]

/-! ## Rewriting leaves the field tree as it is -/

theorem RewritesRows.all_isObject : ∀ {elements elements' : List Json},
    RewritesRows R elements elements' → elements.all Json.isObject ∧ elements'.all Json.isObject
  | _, _, .nil => ⟨rfl, rfl⟩
  | _, _, .cons _ hrest => hrest.all_isObject

theorem RewritesRows.eq_nil_iff : ∀ {elements elements' : List Json},
    RewritesRows R elements elements' → (elements' = [] ↔ elements = [])
  | _, _, .nil => Iff.rfl
  | _, _, .cons _ _ => iff_of_false (List.cons_ne_nil _ _) (List.cons_ne_nil _ _)

/-- Exchanges that leave what a member configures as it was, and that do not make a wrapper of a
    plain object. -/
structure Silent (hints : Hints) (R : String → Json → Json → Prop) : Prop where
  same : ∀ key j j', R key j j' → normalizeField hints key j' = normalizeField hints key j
  plain : ∀ j j', R "vipType" j j' → j.text? = none → j'.text? = none

mutual

theorem normalizeField_rewrites (hR : Silent hints R) : ∀ {key : String} {j j' : Json},
    Rewrites R key j j' → normalizeField hints key j' = normalizeField hints key j
  | _, _, _, .same _ _ => rfl
  | _, _, _, .step h hstep => (hR.same _ _ _ hstep).trans (normalizeField_rewrites hR h)
  | _, _, _, .object hplain h => by
    rw [normalizeField, normalizeField, hplain, h.wrapperType?_eq_none hR.plain hplain,
      normalizeMembers_rewrites hR h]
  | _, _, _, .inside htype htransparent hfirst h => by
    rw [normalizeField_inside _ htype htransparent hfirst, normalizeField_inside _
      ((wrapperType?_inside _ _).trans htype) htransparent hfirst, normalizeField_rewrites hR h]
  | _, .arr elements, _, .list h => by
    by_cases hnil : elements = []
    · rw [hnil, h.eq_nil_iff.mpr hnil]
    · -- A list of objects is one of items, whatever its name is declared as
      obtain ⟨hall, hall'⟩ := h.all_isObject
      rw [normalizeField, normalizeField, if_pos ⟨mt h.eq_nil_iff.mp hnil, hall'⟩,
        if_pos ⟨hnil, hall⟩, normalizeRows_rewrites hR h]

/-- Members that configure the same as before leave the fields of their object as they are. -/
theorem normalizeMembers_rewrites (hR : Silent hints R) :
    ∀ {members members' : List (String × Json)}, RewritesMembers R members members' →
      normalizeMembers hints members' = normalizeMembers hints members
  | _, _, .nil => rfl
  | _, _, .cons h hrest => by
    rw [normalizeMembers, normalizeMembers, normalizeField_rewrites hR h,
      normalizeMembers_rewrites hR hrest]

theorem normalizeRows_rewrites (hR : Silent hints R) : ∀ {elements elements' : List Json},
    RewritesRows R elements elements' →
      normalizeRows hints elements' = normalizeRows hints elements
  | _, _, .nil => rfl
  | _, _, .cons h hrest => by
    rw [normalizeRows, normalizeRows, normalizeMembers_rewrites hR h,
      normalizeRows_rewrites hR hrest]

end

end ProfileMigration.Legacy
