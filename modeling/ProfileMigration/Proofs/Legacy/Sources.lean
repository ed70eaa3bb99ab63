/-
  ProfileMigration.Proofs.Legacy.Sources

  Where the fields of a normalised definition come from:

    Legacy.unwrapped?               -- what a value stands for, out of its wrappers
    Legacy.member?                  -- the value that counts as the member of an object
    Legacy.find?                    -- the member that a path leads to, and its name
    Legacy.rowsAt                   -- the objects of the list that a path leads to
    Legacy.fieldAt?_normalizeMembers -- the field at a path is what that member configures
    Legacy.items_normalizeMembers   -- and items are those objects, normalised one by one
    Legacy.rowsAlong                -- the objects that several paths lead to, list by list
    Legacy.variableAt?              -- the device variable at a path
    Legacy.contentAt?               -- what the value at a path stands for
-/
import ProfileMigration.Proofs.Legacy.Flattening
import ProfileMigration.Proofs.Legacy.Rewriting

namespace ProfileMigration

namespace Legacy

variable {hints : Hints} {members : List (String × Json)}

/-! ## Out of wrappers -/

mutual

/-- What a value stands for: a wrapper that is neither a variable nor ignored stands for what is
    in it, and an empty one for nothing. -/
def unwrapped? : Json → Option Json
  | .obj members =>
    match wrapperType? members with
    | none => some (.obj members)
    | some type => if Transparent type then unwrappedIn? members else some (.obj members)
  | j => some j

/-- What the value in a wrapper stands for. -/
def unwrappedIn? : List (String × Json) → Option Json
  | [] => none
  | (k, j) :: rest => if k = "vipValue" then unwrapped? j else unwrappedIn? rest

end

mutual

/-- A value configures what it stands for. -/
theorem normalizeField_unwrapped (hints : Hints) (key : String) : (j : Json) →
    normalizeField hints key j = (unwrapped? j).bind (normalizeField hints key)
  | .obj members => by
    rw [unwrapped?]
    cases htype : wrapperType? members with
    | none => rfl
    | some type =>
      dsimp only
      by_cases htransparent : Transparent type
      · obtain ⟨hname, hvariable, hignore⟩ := htransparent
        rw [if_pos ⟨hname, hvariable, hignore⟩, normalizeField, htype]
        dsimp only
        rw [if_neg (not_or.mpr ⟨hname, hvariable⟩), if_neg hignore,
          normalizeWrapped_unwrapped hints key members]
      · rw [if_neg htransparent, Option.bind_some]
  | .arr _ | .null | .bool _ | .num _ | .str _ => rfl

theorem normalizeWrapped_unwrapped (hints : Hints) (key : String) :
    (members : List (String × Json)) → normalizeWrapped hints key members =
      (unwrappedIn? members).bind (normalizeField hints key)
  | [] => by rw [normalizeWrapped, unwrappedIn?, Option.bind_none]
  | (k, j) :: rest => by
    rw [normalizeWrapped, unwrappedIn?]
    split
    · exact normalizeField_unwrapped hints key j
    · exact normalizeWrapped_unwrapped hints key rest

end

mutual

/-- What a value stands for is no wrapper, unless it is a variable or ignored. -/
theorem not_transparent_of_unwrapped {type : String} : (j : Json) →
    unwrapped? j = some (.obj members) → wrapperType? members = some type → ¬ Transparent type
  | .obj inner, h, htype => by
    rw [unwrapped?] at h
    cases hinner : wrapperType? inner with
    | none =>
      rw [hinner] at h
      obtain rfl := Json.obj.inj (Option.some.inj h)
      cases hinner.symm.trans htype
    | some type' =>
      rw [hinner] at h
      dsimp only at h
      by_cases htransparent : Transparent type'
      · rw [if_pos htransparent] at h
        exact not_transparent_of_unwrappedIn inner h htype
      · rw [if_neg htransparent] at h
        obtain rfl := Json.obj.inj (Option.some.inj h)
        rwa [Option.some.inj (htype.symm.trans hinner)]
  | .arr _, h, _ | .null, h, _ | .bool _, h, _ | .num _, h, _ | .str _, h, _ => by
    cases Option.some.inj h

theorem not_transparent_of_unwrappedIn {type : String} : (inner : List (String × Json)) →
    unwrappedIn? inner = some (.obj members) → wrapperType? members = some type →
      ¬ Transparent type
  | [], h, _ => by cases h
  | (k, j) :: rest, h, htype => by
    rw [unwrappedIn?] at h
    split at h
    · exact not_transparent_of_unwrapped j h htype
    · exact not_transparent_of_unwrappedIn rest h htype

end

/-! ## Objects and lists of objects -/

/-- The members of the plain object that a value stands for. -/
def object? (j : Json) : Option (List (String × Json)) :=
  match unwrapped? j with
  | some (.obj members) => if (wrapperType? members).isNone then some members else none
  | _ => none

/-- The objects of the list that a value stands for, if it holds nothing else. -/
def objects (j : Json) : List (List (String × Json)) :=
  match unwrapped? j with
  | some (.arr elements) =>
    if elements.all Json.isObject then elements.filterMap Json.members? else []
  | _ => []

/-- The same, where a plain object counts as one. -/
def rows (j : Json) : List (List (String × Json)) :=
  match object? j with
  | some inner => [inner]
  | none => objects j

theorem normalizeRows_eq (hints : Hints) : (elements : List Json) →
    normalizeRows hints elements =
      (elements.filterMap Json.members?).map (normalizeMembers hints)
  | [] => rfl
  | .obj members :: rest => by
    rw [normalizeRows, normalizeRows_eq hints rest]
    rfl
  | .null :: rest | .bool _ :: rest | .num _ :: rest | .str _ :: rest | .arr _ :: rest =>
    normalizeRows_eq hints rest

/-- What is ignored is a value, if it is anything. -/
theorem ignored_value {key : String} {j? : Option Json} {f : Field}
    (h : ignored hints key j? = some f) : ∃ v, f = .value v := by
  unfold ignored at h
  split at h
  · cases h
  · cases h
  · exact ⟨_, (Option.some.inj h).symm⟩
  · exact ⟨_, (Option.some.inj h).symm⟩
  · split at h
    · exact ⟨_, (Option.some.inj h).symm⟩
    · exact ⟨_, (Option.some.inj h).symm⟩
  · exact ⟨_, (Option.some.inj h).symm⟩

/-- A wrapper that is a variable or ignored is a value, if it is anything. -/
theorem normalizeField_value {key type : String} {f : Field}
    (htype : wrapperType? members = some type) (hclosed : ¬ Transparent type)
    (h : normalizeField hints key (.obj members) = some f) : ∃ v, f = .value v := by
  rw [normalizeField, htype] at h
  dsimp only at h
  by_cases hvariable : type = "variableName" ∨ type = "variable"
  · rw [if_pos hvariable] at h
    exact ⟨_, (Option.some.inj h).symm⟩
  · by_cases hignore : type = "ignore"
    · rw [if_neg hvariable, if_pos hignore] at h
      exact ignored_value h
    · exact absurd ⟨fun h => hvariable (.inl h), fun h => hvariable (.inr h), hignore⟩ hclosed

/-- A member configures a group, items, or a value, as what its value stands for is a plain object,
    a list of objects, or anything else. -/
theorem normalizeField_cases (hints : Hints) (key : String) (j : Json) :
    (∃ inner, object? j = some inner ∧
      normalizeField hints key j = some (.group (normalizeMembers hints inner))) ∨
    (object? j = none ∧
      normalizeField hints key j = some (.items ((objects j).map (normalizeMembers hints)))) ∨
    (object? j = none ∧ objects j = [] ∧
      ∀ f, normalizeField hints key j = some f → ∃ v, f = .value v) := by
  rw [normalizeField_unwrapped, object?, objects]
  cases hj : unwrapped? j with
  | none => exact .inr (.inr ⟨rfl, rfl, fun _ hf => by cases hf⟩)
  | some settled =>
    rw [Option.bind_some]
    cases settled with
    | obj members =>
      dsimp only
      cases htype : wrapperType? members with
      | none =>
        refine .inl ⟨members, rfl, ?_⟩
        rw [normalizeField, htype]
      | some type =>
        have hclosed := not_transparent_of_unwrapped j hj htype
        exact .inr (.inr ⟨rfl, rfl, fun _ hf => normalizeField_value htype hclosed hf⟩)
    | arr elements =>
      dsimp only
      rw [normalizeField, normalizeRows_eq]
      by_cases hall : elements.all Json.isObject
      · rw [if_pos hall]
        by_cases hnil : elements = []
        · subst hnil
          exact .inr (.inr ⟨rfl, rfl, fun _ hf => ⟨_, (Option.some.inj hf).symm⟩⟩)
        · rw [if_pos ⟨hnil, hall⟩]
          exact .inr (.inl ⟨rfl, rfl⟩)
      · rw [if_neg (mt And.right hall), if_neg hall]
        exact .inr (.inr ⟨rfl, rfl, fun _ hf => ⟨_, (Option.some.inj hf).symm⟩⟩)
    | null | bool _ | num _ | str _ =>
      exact .inr (.inr ⟨rfl, rfl, fun _ hf => ⟨_, (Option.some.inj hf).symm⟩⟩)

/-- The group that a member configures is the plain object that its value stands for. -/
theorem group?_normalizeField (hints : Hints) (key : String) (j : Json) :
    (normalizeField hints key j).bind Field.group? =
      (object? j).map (normalizeMembers hints) := by
  rcases normalizeField_cases hints key j with ⟨inner, hj, hf⟩ | ⟨hj, hf⟩ | ⟨hj, -, hvalue⟩
  · rw [hj, hf]
    rfl
  · rw [hj, hf]
    rfl
  · rw [hj]
    cases hf : normalizeField hints key j with
    | none => rfl
    | some f =>
      obtain ⟨v, rfl⟩ := hvalue f hf
      rfl

/-- The items that a member configures are the objects of its value. -/
theorem rows_normalizeField (hints : Hints) (key : String) (j : Json) :
    ((normalizeField hints key j).map Field.rows).getD [] =
      (rows j).map (normalizeMembers hints) := by
  rcases normalizeField_cases hints key j with ⟨inner, hj, hf⟩ | ⟨hj, hf⟩ | ⟨hj, hnil, hvalue⟩
  · rw [rows, hj, hf]
    rfl
  · rw [rows, hj, hf]
    rfl
  · rw [rows, hj]
    dsimp only
    rw [hnil]
    cases hf : normalizeField hints key j with
    | none => rfl
    | some f =>
      obtain ⟨v, rfl⟩ := hvalue f hf
      rfl

/-! ## Members -/

/-- The value that counts as the member of an object: the first one under the name that configures
    anything. -/
def member? (name : String) : List (String × Json) → Option Json
  | [] => none
  | (k, j) :: rest =>
    if k = name ∧ k ∉ metaKeys ∧ configures j then some j else member? name rest

theorem get?_normalizeMembers_member (hints : Hints) (name : String) :
    (members : List (String × Json)) → Keyed.get? name (normalizeMembers hints members) =
      (member? name members).bind (normalizeField hints name)
  | [] => rfl
  | (k, j) :: rest => by
    have hconfigures : configures j = (normalizeField hints k j).isSome :=
      isSome_normalizeField [] hints "" k j
    rw [normalizeMembers, member?, hconfigures]
    have ih := get?_normalizeMembers_member hints name rest
    by_cases hmeta : k ∈ metaKeys
    · rw [if_pos hmeta, if_neg fun h => h.2.1 hmeta, ih]
    · rw [if_neg hmeta]
      cases hf : normalizeField hints k j with
      | none =>
        rw [if_neg fun h => Bool.false_ne_true h.2.2]
        exact ih
      | some f =>
        by_cases hk : k = name
        · subst hk
          rw [if_pos ⟨rfl, hmeta, rfl⟩, Option.bind_some, hf, Keyed.get?_cons_self]
        · rw [if_neg fun h => hk h.1, ← ih]
          exact Keyed.get?_cons_of_ne hk f _

theorem groupAt?_normalizeMembers (hints : Hints) (name : String)
    (members : List (String × Json)) : (normalizeMembers hints members).groupAt? name =
      ((member? name members).bind object?).map (normalizeMembers hints) := by
  rw [FieldMap.groupAt?, get?_normalizeMembers_member]
  cases member? name members with
  | none => rfl
  | some j => exact group?_normalizeField hints name j

/-! ## Paths -/

/-- The member that a list of segments leads to, and its name: the one under the name of all of
    them, else one in the object under the longest name of some first ones that leads to any. -/
def findAt? (members : List (String × Json)) (segs : List String) : Option (String × Json) :=
  match member? (Path.joined segs) members with
  | some j => some (Path.joined segs, j)
  | none =>
    (Path.cuts segs).attach.findSome? fun ⟨cut, hcut⟩ =>
      match (member? (Path.joined cut.1) members).bind object? with
      | some inner =>
        have : cut.2.length < segs.length := Path.length_tail_lt_of_mem_cuts hcut
        findAt? inner cut.2
      | none => none
termination_by segs.length

/-- The member that a path leads to, and its name. -/
def find? (members : List (String × Json)) (path : String) : Option (String × Json) :=
  findAt? members (Path.segments path)

/-- The objects of the list that a path leads to. -/
def rowsAt (members : List (String × Json)) (path : String) : List (List (String × Json)) :=
  ((find? members path).map fun found => rows found.2).getD []

theorem findAt?_eq (members : List (String × Json)) (segs : List String) :
    findAt? members segs =
      ((member? (Path.joined segs) members).map (Path.joined segs, ·)).or
        ((Path.cuts segs).findSome? fun cut =>
          ((member? (Path.joined cut.1) members).bind object?).bind (findAt? · cut.2)) := by
  rw [findAt?]
  cases member? (Path.joined segs) members with
  | some j => rfl
  | none =>
    rw [Option.map_none, Option.none_or]
    dsimp only
    refine (List.findSome?_subtype fun cut hcut => ?_).trans
      (congrArg (List.findSome? _) List.unattach_attach)
    cases (member? (Path.joined cut.1) members).bind object? with
    | none => rfl
    | some inner => rfl

/-- What is found configures something. -/
theorem member?_configures {name : String} {j : Json} (h : member? name members = some j) :
    configures j = true := by
  induction members with
  | nil => cases h
  | cons member rest ih =>
    rw [member?] at h
    split at h
    · rename_i hmember
      rw [← Option.some.inj h]
      exact hmember.2.2
    · exact ih h

theorem configures_of_findAt? (segs : List String) (members : List (String × Json))
    {found : String × Json} (h : findAt? members segs = some found) :
    configures found.2 = true := by
  rw [findAt?_eq, Option.or_eq_some_iff] at h
  rcases h with h | ⟨-, h⟩
  · obtain ⟨j, hj, rfl⟩ := Option.map_eq_some_iff.mp h
    exact member?_configures hj
  · obtain ⟨cut, hcut, hfound⟩ := List.exists_of_findSome?_eq_some h
    obtain ⟨inner, -, hinner⟩ := Option.bind_eq_some_iff.mp hfound
    have hlength := Path.length_tail_lt_of_mem_cuts hcut
    exact configures_of_findAt? cut.2 inner hinner
termination_by segs.length

/-- A search goes on with what is found, if that always leads somewhere. -/
theorem bind_findSome? {α β γ : Type} {f : α → Option β} {g : β → Option γ} {l : List α}
    (h : ∀ a ∈ l, ∀ b, f a = some b → (g b).isSome) :
    l.findSome? (fun a => (f a).bind g) = (l.findSome? f).bind g := by
  induction l with
  | nil => rfl
  | cons a rest ih =>
    obtain ⟨ha, hrest⟩ := List.forall_mem_cons.mp h
    rw [List.findSome?_cons, List.findSome?_cons]
    cases hf : f a with
    | none => exact ih hrest
    | some b =>
      obtain ⟨c, hc⟩ := Option.isSome_iff_exists.mp (ha b hf)
      rw [Option.bind_some, hc]

/-- The field at a path is what the member that the path leads to configures. -/
theorem fieldAt?_normalizeMembers (hints : Hints) (segs : List String)
    (members : List (String × Json)) : (normalizeMembers hints members).fieldAt? segs =
      (findAt? members segs).bind fun found => normalizeField hints found.1 found.2 := by
  have hsome : ∀ key j, configures j = true → (normalizeField hints key j).isSome :=
    fun key j h => (isSome_normalizeField hints [] key "" j).trans h
  rw [FieldMap.fieldAt?_eq, findAt?_eq, get?_normalizeMembers_member]
  cases hmember : member? (Path.joined segs) members with
  | some j =>
    -- The member configures a field, so that no cut is looked at
    obtain ⟨f, hf⟩ := Option.isSome_iff_exists.mp (hsome _ j (member?_configures hmember))
    rw [Option.map_some, Option.some_or, Option.bind_some, Option.bind_some, hf]
    rfl
  | none =>
    rw [Option.map_none, Option.none_or, Option.bind_none, Option.none_or, ← bind_findSome?]
    · refine FieldMap.findSome?_congr fun cut hcut => ?_
      have hlength := Path.length_tail_lt_of_mem_cuts hcut
      rw [groupAt?_normalizeMembers]
      cases (member? (Path.joined cut.1) members).bind object? with
      | none => rfl
      | some inner => exact fieldAt?_normalizeMembers hints cut.2 inner
    · intro cut _ found hfound
      obtain ⟨inner, -, hinner⟩ := Option.bind_eq_some_iff.mp hfound
      exact hsome _ _ (configures_of_findAt? cut.2 inner hinner)
termination_by segs.length

theorem field?_normalizeMembers (hints : Hints) (members : List (String × Json)) (path : String) :
    (normalizeMembers hints members).field? path =
      (find? members path).bind fun found => normalizeField hints found.1 found.2 :=
  fieldAt?_normalizeMembers hints (Path.segments path) members

/-- The items at a path are the objects of the list that the path leads to. -/
theorem items_normalizeMembers (hints : Hints) (members : List (String × Json)) (path : String) :
    (normalizeMembers hints members).items path =
      (rowsAt members path).map (normalizeMembers hints) := by
  rw [FieldMap.items_eq, field?_normalizeMembers, rowsAt]
  cases find? members path with
  | none => rfl
  | some found => exact rows_normalizeField hints found.1 found.2

/-- The objects of a list, of the lists in these, and so on along several paths. -/
def rowsAlong : List String → List (String × Json) → List (List (String × Json))
  | [], members => [members]
  | path :: rest, members => (rowsAt members path).flatMap (rowsAlong rest)

/-! ## Device variables -/

/-- The device variable that a value stands for, under the name of its member. -/
def deviceVariable? (key : String) (j : Json) : Option String :=
  match unwrapped? j with
  | some (.obj members) =>
    match wrapperType? members with
    | some type =>
      if type = "variableName" ∨ type = "variable" then some (variableName key members) else none
    | none => none
  | _ => none

/-- The device variable at a path. -/
def variableAt? (members : List (String × Json)) (path : String) : Option String :=
  (find? members path).bind fun found => deviceVariable? found.1 found.2

theorem normalizeField_variable {key name : String} {j : Json}
    (h : deviceVariable? key j = some name) :
    normalizeField hints key j = some (.value (.reference name)) := by
  rw [deviceVariable?] at h
  rw [normalizeField_unwrapped]
  split at h
  · rename_i members hmembers
    rw [hmembers, Option.bind_some, normalizeField]
    split at h
    · rename_i type htype
      rw [htype]
      dsimp only
      split at h
      · rename_i hvariable
        rw [if_pos hvariable, Option.some.inj h]
      · cases h
    · cases h
  · cases h

/-- A device variable is read as a reference by its name. -/
theorem value?_of_variableAt? {path name : String} (h : variableAt? members path = some name) :
    (normalizeMembers hints members).value? path = some (.reference name) := by
  obtain ⟨found, hfound, hname⟩ := Option.bind_eq_some_iff.mp h
  rw [FieldMap.value?, field?_normalizeMembers, hfound, Option.bind_some,
    normalizeField_variable hname]
  rfl

/-! ## Values -/

/-- What is found goes by the name of the last segments, or of all of them. -/
theorem exists_name_of_findAt? (segs : List String) (members : List (String × Json))
    {found : String × Json} (h : findAt? members segs = some found) (hne : segs ≠ []) :
    ∃ tail, tail ≠ [] ∧ tail <:+ segs ∧ found.1 = Path.joined tail := by
  rw [findAt?_eq, Option.or_eq_some_iff] at h
  rcases h with h | ⟨-, h⟩
  · obtain ⟨j, -, rfl⟩ := Option.map_eq_some_iff.mp h
    exact ⟨segs, hne, List.suffix_refl segs, rfl⟩
  · obtain ⟨cut, hcut, hfound⟩ := List.exists_of_findSome?_eq_some h
    obtain ⟨inner, -, hinner⟩ := Option.bind_eq_some_iff.mp hfound
    have hlength := Path.length_tail_lt_of_mem_cuts hcut
    obtain ⟨happ, -, htail⟩ := Path.of_mem_cuts hcut
    obtain ⟨tail, htail', hsuffix, hname⟩ := exists_name_of_findAt? cut.2 inner hinner htail
    exact ⟨tail, htail', hsuffix.trans ⟨cut.1, happ⟩, hname⟩
termination_by segs.length

/-- Its declared kind is that of the path. -/
theorem leaf_of_find? {path : String} {found : String × Json}
    (h : find? members path = some found) : Path.leaf found.1 = Path.leaf path := by
  have hsegs := Path.isSegments_segments path
  obtain ⟨tail, htail, hsuffix, hname⟩ := exists_name_of_findAt? _ members h hsegs.1
  have hsegments : Path.segments found.1 = tail := by
    rw [hname]
    exact Path.segments_joined ⟨htail, fun s hs => hsegs.2 s (hsuffix.subset hs)⟩
  obtain ⟨before, hbefore⟩ := hsuffix
  rw [Path.leaf, Path.leaf, hsegments, ← hbefore, List.getLastD_eq_getLast?,
    List.getLastD_eq_getLast?, List.getLast?_append_of_ne_nil _ htail]
  cases hlast : tail.getLast? with
  | none => exact absurd (List.getLast?_eq_none_iff.mp hlast) htail
  | some s => rfl

/-- What the value at a path stands for. -/
def contentAt? (members : List (String × Json)) (path : String) : Option Json :=
  (find? members path).bind fun found => unwrapped? found.2

/-- A number or a text at a path is read as a literal of the kind that is declared for it. -/
theorem value?_of_contentAt? {path : String} {j : Json} (h : contentAt? members path = some j)
    (hj : ∀ key, normalizeField hints key j = some (.value (.fixed (leaf hints key j)))) :
    (normalizeMembers hints members).value? path = some (.fixed (leaf hints path j)) := by
  obtain ⟨found, hfound, hcontent⟩ := Option.bind_eq_some_iff.mp h
  rw [FieldMap.value?, field?_normalizeMembers, hfound, Option.bind_some,
    normalizeField_unwrapped, hcontent, Option.bind_some, hj,
    leaf_congr hints (leaf_of_find? hfound)]
  rfl

end Legacy

end ProfileMigration
