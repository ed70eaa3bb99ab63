/-
  ProfileMigration.Proofs.Legacy.Flattening

  Definitions that hold an object as one member, and the same with a flat member for each of its
  members:

    Legacy.selfNamed                -- a variable has a name of its own
    Legacy.normalizeField_congr     -- then its place among the members does not matter
    Legacy.get?_normalizeMembers    -- a field of a normalised definition, by its member
    Legacy.Nests                    -- an object that can be flattened
    FieldMap.Flattens               -- the field trees of both definitions
    FieldMap.Flattens.field?_eq     -- they read the same, but for the object itself and for what
                                       only describes it
-/
import ProfileMigration.Legacy.Normalize
import ProfileMigration.Proofs.Field.Segments
import ProfileMigration.Proofs.Text.KeyedLookup

namespace ProfileMigration

namespace Legacy

/-! ## Members under other names -/

/-- The name that a variable has of its own. -/
def ownName? (members : List (String × Json)) : Option String :=
  ((Keyed.get? "vipVariableName" members).bind Json.text?).filter (· ≠ "")

mutual

/-- Whether a value, if it is a variable, has a name of its own. Variables further down are called
    after the members that they stand in. -/
def selfNamed : Json → Bool
  | .obj members =>
    match wrapperType? members with
    | none => true
    | some type =>
      if type = "variableName" ∨ type = "variable" then (ownName? members).isSome
      else if type = "ignore" then true
      else selfNamedWrapped members
  | _ => true

/-- The same for the value in a wrapper. -/
def selfNamedWrapped : List (String × Json) → Bool
  | [] => true
  | (k, j) :: rest => if k = "vipValue" then selfNamed j else selfNamedWrapped rest

end

variable {hints hints' : Hints} {key key' : String}

theorem variableName_congr {members : List (String × Json)} (h : (ownName? members).isSome)
    (key key' : String) : variableName key members = variableName key' members := by
  rw [variableName, variableName]
  cases hname : (Keyed.get? "vipVariableName" members).bind Json.text? with
  | none => simp [ownName?, hname] at h
  | some name =>
    have hne : name ≠ "" := by
      rintro rfl
      simp [ownName?, hname] at h
    dsimp only
    rw [if_neg hne, if_neg hne]

theorem leaf_congr (hints : Hints) (hleaf : Path.leaf key = Path.leaf key') (j : Json) :
    leaf hints key j = leaf hints key' j := by
  rw [leaf, leaf, Hints.kind?, Hints.kind?, hleaf]

theorem ignored_congr (hints : Hints) (hleaf : Path.leaf key = Path.leaf key') (j? : Option Json) :
    ignored hints key j? = ignored hints key' j? := by
  unfold ignored
  simp only [leaf_congr hints hleaf]

mutual

/-- What a member configures goes by the last segment of its name, unless a variable is called
    after it. -/
theorem normalizeField_congr (hints : Hints) (hleaf : Path.leaf key = Path.leaf key') :
    (j : Json) → selfNamed j = true → normalizeField hints key j = normalizeField hints key' j
  | .obj members, hnamed => by
    rw [selfNamed] at hnamed
    rw [normalizeField, normalizeField]
    cases htype : wrapperType? members with
    | none => rfl
    | some type =>
      rw [htype] at hnamed
      dsimp only at hnamed ⊢
      by_cases hvariable : type = "variableName" ∨ type = "variable"
      · -- A variable without a name of its own is called after the whole name of the member
        rw [if_pos hvariable] at hnamed
        rw [if_pos hvariable, if_pos hvariable, variableName_congr hnamed key key']
      · rw [if_neg hvariable] at hnamed
        rw [if_neg hvariable, if_neg hvariable]
        by_cases hignore : type = "ignore"
        · rw [if_pos hignore, if_pos hignore, ignored_congr hints hleaf]
        · rw [if_neg hignore] at hnamed
          rw [if_neg hignore, if_neg hignore, normalizeWrapped_congr hints hleaf members hnamed]
  | .arr elements, _ => by
    rw [normalizeField, normalizeField, leaf_congr hints hleaf]
  | .null, _ | .bool _, _ | .num _, _ | .str _, _ => by
    unfold normalizeField
    rw [leaf_congr hints hleaf]

theorem normalizeWrapped_congr (hints : Hints) (hleaf : Path.leaf key = Path.leaf key') :
    (members : List (String × Json)) → selfNamedWrapped members = true →
      normalizeWrapped hints key members = normalizeWrapped hints key' members
  | [], _ => by rw [normalizeWrapped, normalizeWrapped]
  | (k, j) :: rest, hnamed => by
    rw [selfNamedWrapped] at hnamed
    rw [normalizeWrapped, normalizeWrapped]
    by_cases hvalue : k = "vipValue"
    · rw [if_pos hvalue] at hnamed
      rw [if_pos hvalue, if_pos hvalue, normalizeField_congr hints hleaf j hnamed]
    · rw [if_neg hvalue] at hnamed
      rw [if_neg hvalue, if_neg hvalue, normalizeWrapped_congr hints hleaf rest hnamed]

end

/-! ## What configures anything -/

theorem isSome_ignored (hints hints' : Hints) (key key' : String) (j? : Option Json) :
    (ignored hints key j?).isSome = (ignored hints' key' j?).isSome := by
  unfold ignored
  split
  · rfl
  · rfl
  · rfl
  · rfl
  · split
    · rfl
    · rfl
  · rfl

mutual

/-- Whether a member configures anything is a matter of its value alone. -/
theorem isSome_normalizeField (hints hints' : Hints) (key key' : String) :
    (j : Json) → (normalizeField hints key j).isSome = (normalizeField hints' key' j).isSome
  | .obj members => by
    rw [normalizeField, normalizeField]
    cases htype : wrapperType? members with
    | none => rfl
    | some type =>
      dsimp only
      by_cases hvariable : type = "variableName" ∨ type = "variable"
      · rw [if_pos hvariable, if_pos hvariable]
        rfl
      · rw [if_neg hvariable, if_neg hvariable]
        by_cases hignore : type = "ignore"
        · rw [if_pos hignore, if_pos hignore, isSome_ignored hints hints' key key']
        · rw [if_neg hignore, if_neg hignore,
            isSome_normalizeWrapped hints hints' key key' members]
  | .arr elements => by
    rw [normalizeField, normalizeField]
    split
    · rfl
    · rfl
  | .null | .bool _ | .num _ | .str _ => by
    unfold normalizeField
    rfl

theorem isSome_normalizeWrapped (hints hints' : Hints) (key key' : String) :
    (members : List (String × Json)) → (normalizeWrapped hints key members).isSome =
      (normalizeWrapped hints' key' members).isSome
  | [] => by rw [normalizeWrapped, normalizeWrapped]
  | (k, j) :: rest => by
    rw [normalizeWrapped, normalizeWrapped]
    split
    · exact isSome_normalizeField hints hints' key key' j
    · exact isSome_normalizeWrapped hints hints' key key' rest

end

/-- Whether a member with a value configures anything. -/
def configures (j : Json) : Bool := (normalizeField [] "" j).isSome

/-! ## Fields of a normalised definition -/

/-- A field of a normalised definition is what its member configures. -/
theorem get?_normalizeMembers (hints : Hints) {members : List (String × Json)}
    (h : (members.map Prod.fst).Nodup) (key : String) :
    Keyed.get? key (normalizeMembers hints members) =
      if key ∈ metaKeys then none
      else (Keyed.get? key members).bind (normalizeField hints key) := by
  induction members with
  | nil =>
    rw [normalizeMembers]
    split
    · rfl
    · rfl
  | cons member rest ih =>
    obtain ⟨k, j⟩ := member
    rw [List.map_cons, List.nodup_cons] at h
    have hrest := ih h.2
    rw [normalizeMembers]
    by_cases hk : k = key
    · -- No later member has the same name
      subst hk
      have hlater : Keyed.get? k rest = none :=
        Keyed.get?_eq_none_iff.mpr fun e he heq => h.1 (heq ▸ List.mem_map.mpr ⟨e, he, rfl⟩)
      rw [hlater] at hrest
      rw [Keyed.get?_cons_self, Option.bind_some]
      by_cases hmeta : k ∈ metaKeys
      · rw [if_pos hmeta] at hrest
        rw [if_pos hmeta, if_pos hmeta, hrest]
      · rw [if_neg hmeta] at hrest
        rw [if_neg hmeta, if_neg hmeta]
        cases normalizeField hints k j with
        | none => exact hrest
        | some f => exact Keyed.get?_cons_self k f _
    · rw [Keyed.get?_cons_of_ne hk, ← hrest]
      split
      · rfl
      · cases normalizeField hints k j with
        | none => rfl
        | some f => exact Keyed.get?_cons_of_ne hk f _

/-- The names that only describe a definition have no slash. -/
theorem single_of_mem_metaKeys : ∀ key ∈ metaKeys, Path.Single key := by
  decide +kernel

theorem below_not_mem_metaKeys {k : String} (hk : Path.Single k) (x : String) :
    k ++ "/" ++ x ∉ metaKeys := by
  intro hmem
  have hsegments := single_of_mem_metaKeys _ hmem
  rw [Path.Single, Path.segments_below hk] at hsegments
  exact Path.segments_ne_nil x (List.cons.inj hsegments).2

end Legacy

/-! ## Flattened field trees -/

/-- A field tree with a group under a name, and one that has the fields of that group under the
    name and a slash. What only describes the group does not have to be there. -/
structure FieldMap.Flattens (k : String) (inner m m' : FieldMap) : Prop where
  group : Keyed.get? k m = some (.group inner)
  gone : Keyed.get? k m' = none
  free : ∀ x, Keyed.get? (k ++ "/" ++ x) m = none
  below : ∀ x, x ∉ Legacy.metaKeys → Keyed.get? (k ++ "/" ++ x) m' = Keyed.get? x inner
  others : ∀ key, (Path.segments key).head? ≠ some k → Keyed.get? key m' = Keyed.get? key m
  filled : ∃ x, x ∉ Legacy.metaKeys ∧ Keyed.get? x inner ≠ none

/-- A path does not lead to the group itself, nor to what only describes it. -/
def Path.Settled (k path : String) : Prop :=
  (segments path).head? = some k → ∃ t ∈ (segments path)[1]?, t ∉ Legacy.metaKeys

instance (k path : String) : Decidable (Path.Settled k path) :=
  inferInstanceAs (Decidable (_ → _))

namespace FieldMap

variable {k : String} {inner m m' : FieldMap}

theorem Flattens.fieldAt?_of_ne (h : Flattens k inner m m') {s : String} (hs : Path.Single s)
    (hne : s ≠ k) (rest : List String) : m'.fieldAt? (s :: rest) = m.fieldAt? (s :: rest) := by
  refine fieldAt?_congr (List.cons_ne_nil s rest) fun head tail happ hhead => ?_
  obtain ⟨s', more, rfl⟩ := List.exists_cons_of_ne_nil hhead
  obtain ⟨rfl, -⟩ := List.cons.inj happ
  refine h.others _ ?_
  rw [Path.head?_segments_joined hs]
  exact fun heq => hne (Option.some.inj heq)

theorem joined_not_mem_metaKeys {t : String} (ht : Path.Single t) (hmeta : t ∉ Legacy.metaKeys)
    (rest : List String) : Path.joined (t :: rest) ∉ Legacy.metaKeys := by
  intro hmem
  have hhead := Path.head?_segments_joined ht rest
  rw [Legacy.single_of_mem_metaKeys _ hmem] at hhead
  rw [Option.some.inj hhead] at hmem
  exact hmeta hmem

/-- Below the group, both read what is in it. -/
theorem Flattens.fieldAt?_below (h : Flattens k inner m m') {t : String} (ht : Path.Single t)
    (hmeta : t ∉ Legacy.metaKeys) (rest : List String) :
    m'.fieldAt? (k :: t :: rest) = m.fieldAt? (k :: t :: rest) := by
  have htail : t :: rest ≠ [] := List.cons_ne_nil t rest
  have hnested : m.fieldAt? (k :: t :: rest) = inner.fieldAt? (t :: rest) := by
    have hcuts : (Path.cuts (t :: rest)).findSome? (fun cut =>
        (m.groupAt? (k ++ "/" ++ Path.joined cut.1)).bind (·.fieldAt? cut.2)) = none := by
      refine List.findSome?_eq_none_iff.mpr fun cut _ => ?_
      rw [groupAt?, h.free]
      rfl
    -- No key begins with the name and a slash, so only the group is left
    rw [fieldAt?_cons htail, h.free, hcuts, groupAt?, h.group]
    rfl
  have hflat : m'.fieldAt? (k :: t :: rest) = inner.fieldAt? (t :: rest) := by
    have hgone : m'.groupAt? k = none := by
      rw [groupAt?, h.gone]
      rfl
    rw [fieldAt?_cons htail, hgone, fieldAt?_eq inner,
      h.below _ (joined_not_mem_metaKeys ht hmeta rest), Option.bind_none, Option.or_none]
    refine congrArg (Option.or _) (findSome?_congr fun cut hcut => ?_)
    -- What comes first in a cut begins like the whole
    obtain ⟨happ, hhead, -⟩ := Path.of_mem_cuts hcut
    obtain ⟨s, more, hcons⟩ := List.exists_cons_of_ne_nil hhead
    rw [hcons] at happ
    obtain ⟨rfl, -⟩ := List.cons.inj happ
    rw [groupAt?, hcons, h.below _ (joined_not_mem_metaKeys ht hmeta more), groupAt?]
  rw [hflat, hnested]

/-- Both read the same, but for the group itself and for what only describes it. -/
theorem Flattens.field?_eq (h : Flattens k inner m m') {path : String}
    (hpath : Path.Settled k path) : m'.field? path = m.field? path := by
  rw [Path.Settled] at hpath
  rw [field?, field?]
  have hsingle : ∀ s ∈ Path.segments path, Path.Single s := fun _ => Path.single_of_mem_segments
  cases hsegs : Path.segments path with
  | nil => exact absurd hsegs (Path.segments_ne_nil path)
  | cons s rest =>
    rw [hsegs] at hpath hsingle
    by_cases hs : s = k
    · subst hs
      obtain ⟨t, ht, hmeta⟩ := hpath rfl
      cases rest with
      | nil => cases ht
      | cons t' more =>
        obtain rfl : t' = t := Option.some.inj ht
        exact h.fieldAt?_below (hsingle t' (List.mem_cons_of_mem _ List.mem_cons_self)) hmeta more
    · exact h.fieldAt?_of_ne (hsingle s List.mem_cons_self) hs rest

/-- Something is configured at a path or under a flat key below it. -/
theorem has_iff {path : String} : m.has path = true ↔
    (m.field? path).isSome = true ∨ ∃ x, Keyed.get? (path ++ "/" ++ x) m ≠ none := by
  rw [has, Bool.or_eq_true, List.any_eq_true]
  refine or_congr_right ?_
  constructor
  · rintro ⟨⟨key, f⟩, hmem, hprefix⟩
    obtain ⟨rest, hrest⟩ := List.isPrefixOf_iff_prefix.mp hprefix
    have hkey : key = path ++ "/" ++ String.ofList rest := by
      refine String.toList_injective ?_
      simp [← hrest]
    refine ⟨String.ofList rest, fun hnone => ?_⟩
    exact Keyed.get?_eq_none_iff.mp hnone _ hmem hkey
  · rintro ⟨x, hx⟩
    obtain ⟨f, hf⟩ := Option.ne_none_iff_exists'.mp hx
    refine ⟨_, Keyed.mem_of_get? hf, List.isPrefixOf_iff_prefix.mpr ⟨x.toList, ?_⟩⟩
    simp

/-- Something is configured at the same names, the group that has been flattened among them. -/
theorem Flattens.has_eq (h : Flattens k inner m m') {path : String} (hpath : Path.Single path) :
    m'.has path = m.has path := by
  rw [Bool.eq_iff_iff, has_iff, has_iff, field?_of_single hpath, field?_of_single hpath]
  by_cases hk : path = k
  · subst hk
    obtain ⟨x, hmeta, hx⟩ := h.filled
    refine iff_of_true (.inr ⟨x, ?_⟩) (.inl ?_)
    · rwa [h.below x hmeta]
    · rw [h.group]
      rfl
  · have hother : ∀ x, Keyed.get? (path ++ "/" ++ x) m' = Keyed.get? (path ++ "/" ++ x) m := by
      refine fun x => h.others _ ?_
      rw [Path.segments_below hpath]
      exact fun heq => hk (Option.some.inj heq)
    have hself : Keyed.get? path m' = Keyed.get? path m := by
      refine h.others _ ?_
      rw [hpath]
      exact fun heq => hk (Option.some.inj heq)
    simp only [hother, hself]

end FieldMap

/-! ## Flattened definitions -/

namespace Legacy

/-- The members of an object with flat ones in place of the one under a name. -/
def flatMembers (k : String) (inner members : List (String × Json)) : List (String × Json) :=
  members.filter (·.1 ≠ k) ++ inner.map fun (x, j) => (k ++ "/" ++ x, j)

/-- An object that is a plain member of another one and can be flattened: names are not repeated,
    none of the other one begins like the flat ones, variables have names of their own, and
    something is configured. -/
structure Nests (k : String) (inner members : List (String × Json)) : Prop where
  member : (k, .obj inner) ∈ members
  plain : wrapperType? inner = none
  distinct : (members.map Prod.fst).Nodup
  distinctInner : (inner.map Prod.fst).Nodup
  alone : ∀ e ∈ members, (k.toList ++ ['/']).isPrefixOf e.1.toList = false
  named : ∀ e ∈ inner, selfNamed e.2 = true
  configured : ∃ e ∈ inner, e.1 ∉ metaKeys ∧ configures e.2 = true

variable {k : String} {inner members flat : List (String × Json)}

theorem Nests.ne_below (h : Nests k inner members) {e : String × Json} (he : e ∈ members)
    (x : String) : e.1 ≠ k ++ "/" ++ x := by
  intro heq
  have hprefix : (k.toList ++ ['/']).isPrefixOf e.1.toList = true := by
    refine List.isPrefixOf_iff_prefix.mpr ⟨x.toList, ?_⟩
    simp [heq]
  rw [h.alone e he] at hprefix
  cases hprefix

theorem mem_flatMembers_iff {key : String} {j : Json} :
    (key, j) ∈ flatMembers k inner members ↔
      (key, j) ∈ members ∧ key ≠ k ∨ ∃ x, (x, j) ∈ inner ∧ k ++ "/" ++ x = key := by
  rw [flatMembers, List.mem_append, List.mem_filter, List.mem_map]
  refine or_congr (and_congr_right fun _ => decide_eq_true_iff) ?_
  constructor
  · rintro ⟨⟨x, j'⟩, hmem, heq⟩
    obtain ⟨hkey, rfl⟩ := Prod.mk.inj heq
    exact ⟨x, hmem, hkey⟩
  · rintro ⟨x, hmem, rfl⟩
    exact ⟨(x, j), hmem, rfl⟩

theorem Nests.nodup_flatMembers (h : Nests k inner members) :
    ((flatMembers k inner members).map Prod.fst).Nodup := by
  rw [flatMembers, List.map_append, List.map_map, List.nodup_append]
  refine ⟨?kept, ?below, ?apart⟩
  case kept => exact h.distinct.sublist (List.filter_sublist.map Prod.fst)
  case below =>
    have hnames : inner.map (Prod.fst ∘ fun e => (k ++ "/" ++ e.1, e.2)) =
        (inner.map Prod.fst).map (k ++ "/" ++ ·) := by
      rw [List.map_map]
      rfl
    rw [hnames]
    exact List.Pairwise.map _ (fun _ _ hne heq =>
      hne ((String.append_right_inj (k ++ "/")).mp heq)) h.distinctInner
  case apart =>
    intro key hkey other hother
    obtain ⟨e, he, rfl⟩ := List.mem_map.mp hkey
    obtain ⟨x, -, rfl⟩ := List.mem_map.mp hother
    exact h.ne_below (List.mem_filter.mp he).1 x.1

/-- Flattening a definition flattens its field tree. -/
theorem Nests.flattens (h : Nests k inner members) (hk : Path.Single k) (hmeta : k ∉ metaKeys)
    (hflat : flat.Perm (flatMembers k inner members)) (hints : Hints) :
    FieldMap.Flattens k (normalizeMembers hints inner) (normalizeMembers hints members)
      (normalizeMembers hints flat) := by
  have hdistinct : (flat.map Prod.fst).Nodup :=
    (hflat.map Prod.fst).nodup_iff.mpr h.nodup_flatMembers
  have hmem : ∀ key j, (key, j) ∈ flat ↔
      (key, j) ∈ members ∧ key ≠ k ∨ ∃ x, (x, j) ∈ inner ∧ k ++ "/" ++ x = key :=
    fun key j => hflat.mem_iff.trans mem_flatMembers_iff
  -- No flat member begins the same, but for those that were in the object
  have hbelow : ∀ x, Keyed.get? (k ++ "/" ++ x) flat = Keyed.get? x inner := by
    refine fun x => Keyed.get?_congr hdistinct h.distinctInner fun j => ?_
    rw [hmem, or_iff_right fun hold => h.ne_below hold.1 x rfl]
    constructor
    · rintro ⟨x', hinner, heq⟩
      rwa [(String.append_right_inj (k ++ "/")).mp heq] at hinner
    · exact fun hinner => ⟨x, hinner, rfl⟩
  have hothers : ∀ key, (Path.segments key).head? ≠ some k →
      Keyed.get? key flat = Keyed.get? key members := by
    refine fun key hkey => Keyed.get?_congr hdistinct h.distinct fun j => ?_
    rw [hmem]
    constructor
    · rintro (⟨hold, -⟩ | ⟨x, -, rfl⟩)
      · exact hold
      · rw [Path.segments_below hk] at hkey
        exact absurd rfl hkey
    · intro hold
      refine .inl ⟨hold, ?_⟩
      rintro rfl
      rw [hk] at hkey
      exact hkey rfl
  -- The object itself is gone: the other members have other names, and the flat ones longer ones
  have hgone : Keyed.get? k flat = none := by
    rw [Keyed.get?_eq_none_iff]
    rintro ⟨key, j⟩ hflatMem rfl
    rcases (hmem key j).mp hflatMem with ⟨-, hne⟩ | ⟨x, -, heq⟩
    · exact hne rfl
    · rw [Path.Single, ← heq, Path.segments_below (heq ▸ hk)] at hk
      exact Path.segments_ne_nil x (List.cons.inj hk).2
  refine ⟨?group, ?gone, fun x => ?free, fun x hx => ?below, fun key hkey => ?others, ?filled⟩
  case group =>
    rw [get?_normalizeMembers hints h.distinct, if_neg hmeta,
      (Keyed.get?_eq_some_iff_mem h.distinct).mpr h.member, Option.bind_some, normalizeField,
      h.plain]
  case gone =>
    rw [get?_normalizeMembers hints hdistinct, if_neg hmeta, hgone]
    rfl
  case free =>
    rw [get?_normalizeMembers hints h.distinct, if_neg (below_not_mem_metaKeys hk x),
      Keyed.get?_eq_none_iff.mpr fun e he => h.ne_below he x]
    rfl
  case below =>
    rw [get?_normalizeMembers hints hdistinct, if_neg (below_not_mem_metaKeys hk x), hbelow x,
      get?_normalizeMembers hints h.distinctInner, if_neg hx]
    refine Option.bind_congr fun j hj => ?_
    exact normalizeField_congr hints (Path.leaf_below hk x) j (h.named _ (Keyed.mem_of_get? hj))
  case others =>
    rw [get?_normalizeMembers hints hdistinct, get?_normalizeMembers hints h.distinct,
      hothers key hkey]
  case filled =>
    obtain ⟨⟨x, j⟩, hmemInner, hx, hj⟩ := h.configured
    refine ⟨x, hx, ?_⟩
    rw [get?_normalizeMembers hints h.distinctInner, if_neg hx,
      (Keyed.get?_eq_some_iff_mem h.distinctInner).mpr hmemInner, Option.bind_some,
      ← Option.isSome_iff_ne_none, isSome_normalizeField hints [] x ""]
    exact hj

end Legacy

end ProfileMigration
