/-
  ProfileMigration.Proofs.Field.Presence

  Asking whether something is configured at a path or below it, and what can be read there:

    FieldMap.Configured         -- something can be read at a path or below it
    FieldMap.EndsInKey          -- a group on the way has a key with the end of the path and more
    Path.IsCut.boundary         -- a cut of two paths in one cuts between them, or has a part with
                                   an end of the one and a beginning of the other
    FieldMap.configured_iff     -- what is asked for is configured, and what it leaves out is
                                   exactly what only such keys hold
    FieldMap.has_iff_configured_of_single -- so it is right at single names
    FieldMap.has_iff_configured_of_flat   -- and where flat keys stand at the top only

  The question looks for flat keys below a path at the top of a tree; reading takes them at every
  depth.
-/
import ProfileMigration.Proofs.Field.Lookup
import ProfileMigration.Proofs.Field.Writing
import ProfileMigration.Proofs.Legacy.Flattening

namespace ProfileMigration

namespace Path

variable {front back : List String} {parts : List (List String)}

/-- A cut of segments and more segments cuts between them, or one of its parts has an end of the
    first ones and a beginning of the others. -/
theorem IsCut.boundary (h : IsCut (front ++ back) parts) :
    (∃ before after, parts = before ++ after ∧ IsCut front before) ∨
      ∃ before part more after, parts = before ++ (part ++ more) :: after ∧
        IsCut front (before ++ [part]) ∧ more ≠ [] ∧ more ++ after.flatten = back := by
  obtain ⟨hflatten, hne⟩ := h
  rcases List.flatten_eq_append_iff.mp hflatten with
    ⟨before, after, rfl, hfront, -⟩ | ⟨before, part, s, more, after, rfl, hfront, hback⟩
  case inl =>
    exact .inl ⟨before, after, rfl, hfront.symm, (List.forall_mem_append.mp hne).1⟩
  case inr =>
    have hbefore := (List.forall_mem_append.mp hne).1
    by_cases hpart : part = []
    · -- The part begins where the others begin
      subst hpart
      rw [List.append_nil] at hfront
      exact .inl ⟨before, _, rfl, hfront.symm, hbefore⟩
    · refine .inr ⟨before, part, s :: more, after, rfl, ⟨?_, ?_⟩, List.cons_ne_nil s more,
        hback.symm⟩
      · rw [List.flatten_append, List.flatten_singleton, hfront]
      · exact List.forall_mem_append.mpr ⟨hbefore, List.forall_mem_singleton.mpr hpart⟩

/-- Longer by some segments, the last part of a cut is the last part of a cut of more segments. -/
theorem IsCut.extend {before : List (List String)} {part : List String}
    (h : IsCut front (before ++ [part])) (back : List String) :
    IsCut (front ++ back) (before ++ [part ++ back]) := by
  obtain ⟨hflatten, hne⟩ := h
  obtain ⟨hbefore, hpart⟩ := List.forall_mem_append.mp hne
  refine ⟨?_, List.forall_mem_append.mpr ⟨hbefore, List.forall_mem_singleton.mpr ?_⟩⟩
  · rw [← hflatten, List.flatten_append, List.flatten_singleton, List.flatten_append,
      List.flatten_singleton, List.append_assoc]
  · exact List.append_ne_nil_of_left_ne_nil (hpart part List.mem_cons_self) back

end Path

namespace FieldMap

variable {m : FieldMap} {path : String} {parts : List (List String)}

/-! ## What can be read -/

/-- Something can be read at a path, or at some path below it. -/
def Configured (m : FieldMap) (path : String) : Prop :=
  (m.field? path).isSome ∨ ∃ rest, (m.field? (path ++ "/" ++ rest)).isSome

/-- First segments of a path lead through groups into one that has a key of all others and more,
    from which a field is read. -/
def EndsInKey (m : FieldMap) (path : String) : Prop :=
  ∃ before part rest, before ≠ [] ∧ Path.IsCut (Path.segments path) (before ++ [part]) ∧
    (m.through? (before ++ [part ++ Path.segments rest])).isSome

theorem isSome_field?_iff : (m.field? path).isSome ↔
    ∃ parts, Path.IsCut (Path.segments path) parts ∧ (m.through? parts).isSome := by
  constructor
  · intro h
    obtain ⟨f, hf⟩ := Option.isSome_iff_exists.mp h
    obtain ⟨parts, hparts⟩ := firstLead_of_fieldAt? _ m (Path.segments_ne_nil path) hf
    exact ⟨parts, hparts.cut, Option.isSome_of_eq_some hparts.leads⟩
  · rintro ⟨parts, hcut, hleads⟩
    exact isSome_fieldAt?_of_through? hcut hleads

/-- What leads to a field leads to groups on the way. -/
theorem isSome_through?_left {before after : List (List String)} (hbefore : before ≠ [])
    (h : (m.through? (before ++ after)).isSome) : (m.through? before).isSome := by
  induction before generalizing m with
  | nil => exact absurd rfl hbefore
  | cons part rest ih =>
    by_cases hafter : rest ++ after = []
    · obtain ⟨rfl, rfl⟩ := List.append_eq_nil_iff.mp hafter
      exact h
    · rw [List.cons_append, through?_cons hafter] at h
      obtain ⟨f, hf⟩ := Option.isSome_iff_exists.mp h
      obtain ⟨inner, hinner, hread⟩ := Option.bind_eq_some_iff.mp hf
      by_cases hrest : rest = []
      · -- The part is the key of the group itself
        subst hrest
        obtain ⟨g, hg, -⟩ := Option.bind_eq_some_iff.mp hinner
        exact Option.isSome_of_eq_some hg
      · rw [through?_cons hrest, hinner, Option.bind_some]
        exact ih hrest (Option.isSome_of_eq_some hread)

/-- A flat key below a path is one of the ways to read there. -/
theorem isSome_field?_of_get? {key : String} (h : Keyed.get? key m ≠ none) :
    (m.field? key).isSome := by
  refine isSome_field?_iff.mpr ⟨[Path.segments key],
    Path.isCut_singleton (Path.segments_ne_nil key), ?_⟩
  show (Keyed.get? (Path.joined (Path.segments key)) m).isSome
  rw [Path.joined_segments]
  exact Option.isSome_iff_ne_none.mpr h

/-! ## What is asked for -/

/-- Where something is said to be configured, it can be read. -/
theorem configured_of_has (h : m.has path = true) : m.Configured path := by
  rcases has_iff.mp h with hread | ⟨rest, hkey⟩
  · exact .inl hread
  · exact .inr ⟨rest, isSome_field?_of_get? hkey⟩

theorem EndsInKey.configured (h : m.EndsInKey path) : m.Configured path := by
  obtain ⟨before, part, rest, -, hcut, hleads⟩ := h
  refine .inr ⟨rest, isSome_field?_iff.mpr ⟨_, ?_, hleads⟩⟩
  rw [Path.segments_slash]
  exact hcut.extend (Path.segments rest)

/-- What can be read below a path is found, unless only a key inside a group leads to it. -/
theorem has_or_endsInKey_of_below {rest : String} (h : (m.field? (path ++ "/" ++ rest)).isSome) :
    m.has path = true ∨ m.EndsInKey path := by
  obtain ⟨parts, hcut, hleads⟩ := isSome_field?_iff.mp h
  rw [Path.segments_slash] at hcut
  rcases hcut.boundary with ⟨before, after, rfl, hbefore⟩ |
    ⟨before, part, more, after, rfl, hbefore, hmore, hrest⟩
  case inl =>
    -- The keys lead through a field at the path
    have hne : before ≠ [] := by
      rintro rfl
      exact Path.segments_ne_nil path hbefore.1.symm
    have hread : (m.field? path).isSome :=
      isSome_field?_iff.mpr ⟨before, hbefore, isSome_through?_left hne hleads⟩
    exact .inl (has_iff.mpr (.inl hread))
  case inr =>
    have hsegments : Path.IsSegments more := by
      refine ⟨hmore, fun s hs => ?_⟩
      have hmem : s ∈ Path.segments rest := hrest ▸ List.mem_append_left _ hs
      exact Path.single_of_mem_segments hmem
    have hpart : (m.through? (before ++ [part ++ more])).isSome := by
      rw [List.append_cons] at hleads
      exact isSome_through?_left (List.append_ne_nil_of_right_ne_nil _ (List.cons_ne_nil _ _))
        hleads
    by_cases hnil : before = []
    · -- The whole path is in a key at the top
      subst hnil
      have hpath : part = Path.segments path := by
        rw [← hbefore.1, List.nil_append, List.flatten_singleton]
      have hkey : Path.joined (part ++ more) = path ++ "/" ++ Path.joined more := by
        rw [hpath, ← Path.segments_joined hsegments, ← Path.segments_slash, Path.joined_segments,
          Path.segments_joined hsegments]
      have hget : (Keyed.get? (Path.joined (part ++ more)) m).isSome := hpart
      rw [hkey] at hget
      exact .inl (has_iff.mpr (.inr ⟨Path.joined more, Option.isSome_iff_ne_none.mp hget⟩))
    · refine .inr ⟨before, part, Path.joined more, hnil, hbefore, ?_⟩
      rw [Path.segments_joined hsegments]
      exact hpart

theorem Configured.has_or_endsInKey (h : m.Configured path) :
    m.has path = true ∨ m.EndsInKey path := by
  rcases h with hread | ⟨rest, hread⟩
  · exact .inl (has_iff.mpr (.inl hread))
  · exact has_or_endsInKey_of_below hread

/-- Something can be read at a path or below it exactly if it is said to be configured there, or if
    first segments of the path lead into a group that has a flat key of all others and more. -/
theorem configured_iff (m : FieldMap) (path : String) :
    m.Configured path ↔ m.has path = true ∨ m.EndsInKey path := by
  refine ⟨fun h => h.has_or_endsInKey, ?_⟩
  rintro (hhas | hkey)
  · exact configured_of_has hhas
  · exact hkey.configured

/-- A flat key inside a group can be read below a path into the group, which is not said to be
    configured. -/
theorem has_misses_inner_key :
    let m : FieldMap := [("a", .group [("b/c", .value (.int 1))])]
    ¬ (m.has "a/b" = true ↔ m.Configured "a/b") := by
  have hhas : FieldMap.has [("a", .group [("b/c", .value (.int 1))])] "a/b" = false := by
    decide +kernel
  have hread : FieldMap.field? [("a", .group [("b/c", .value (.int 1))])] ("a/b" ++ "/" ++ "c") =
      some (.value (.int 1)) := by
    decide +kernel
  intro m hiff
  have hconfigured : m.Configured "a/b" := .inr ⟨"c", Option.isSome_of_eq_some hread⟩
  rw [hhas] at hiff
  exact Bool.false_ne_true (hiff.mpr hconfigured)

/-! ## Where the question is right -/

theorem has_iff_configured (h : ¬ m.EndsInKey path) : m.has path = true ↔ m.Configured path :=
  ⟨configured_of_has, fun hconfigured => hconfigured.has_or_endsInKey.resolve_right h⟩

/-- A single name leads into no group before its end. -/
theorem has_iff_configured_of_single (hpath : Path.Single path) :
    m.has path = true ↔ m.Configured path := by
  refine has_iff_configured ?_
  rintro ⟨before, part, rest, hbefore, hcut, -⟩
  have hlength := congrArg List.length hcut.1
  rw [hpath, List.flatten_append, List.flatten_singleton, List.length_append,
    List.length_singleton] at hlength
  -- Both the parts before and the last one have segments
  have hpart := List.length_pos_iff.mpr (hcut.2 part (List.mem_append_right _ List.mem_cons_self))
  have hflatten : before.flatten ≠ [] := by
    obtain ⟨first, others, rfl⟩ := List.exists_cons_of_ne_nil hbefore
    rw [List.flatten_cons]
    exact List.append_ne_nil_of_left_ne_nil (hcut.2 first List.mem_cons_self) _
  have hpos := List.length_pos_iff.mpr hflatten
  omega

/-- No key made of several segments leads to a field in a group without slashes. -/
theorem SlashFree.through?_eq_none (h : m.SlashFree) {before : List (List String)}
    {part : List String} (hpart : Path.IsSegments part) (hlong : 1 < part.length) :
    m.through? (before ++ [part]) = none := by
  induction before generalizing m with
  | nil =>
    show Keyed.get? (Path.joined part) m = none
    by_contra hne
    obtain ⟨f, hf⟩ := Option.ne_none_iff_exists'.mp hne
    have hkey := (Field.allSlashFree_iff.mp h _ (Keyed.mem_of_get? hf)).1
    have hsingle := congrArg List.length hkey
    rw [Path.segments_joined hpart, List.length_singleton] at hsingle
    omega
  | cons first rest ih =>
    rw [List.cons_append, through?_cons (List.append_ne_nil_of_right_ne_nil _
      (List.cons_ne_nil _ _))]
    refine Option.bind_eq_none_iff.mpr fun inner hinner => ?_
    exact ih (h.groupAt? hinner)

/-- Where the groups of a tree have no flat keys, those at its top are all there are. -/
theorem has_iff_configured_of_flat (h : ∀ e ∈ m, e.2.SlashFree) :
    m.has path = true ↔ m.Configured path := by
  refine has_iff_configured ?_
  rintro ⟨before, part, rest, hbefore, hcut, hleads⟩
  obtain ⟨first, others, rfl⟩ := List.exists_cons_of_ne_nil hbefore
  have hsegments : Path.IsSegments (part ++ Path.segments rest) := by
    refine ⟨List.append_ne_nil_of_right_ne_nil _ (Path.segments_ne_nil rest),
      List.forall_mem_append.mpr ⟨fun s hs => ?_, (Path.isSegments_segments rest).2⟩⟩
    have hmem : s ∈ Path.segments path :=
      hcut.1 ▸ List.mem_flatten_of_mem (List.mem_append_right _ List.mem_cons_self) hs
    exact Path.single_of_mem_segments hmem
  -- What comes behind the first key is read in a group without flat keys
  have hlong : 1 < (part ++ Path.segments rest).length := by
    have hpart := List.length_pos_iff.mpr (hcut.2 part (List.mem_append_right _ List.mem_cons_self))
    have hrest := List.length_pos_iff.mpr (Path.segments_ne_nil rest)
    rw [List.length_append]
    omega
  rw [List.cons_append, through?_cons (List.append_ne_nil_of_right_ne_nil _
    (List.cons_ne_nil _ _))] at hleads
  obtain ⟨f, hf⟩ := Option.isSome_iff_exists.mp hleads
  obtain ⟨inner, hinner, hread⟩ := Option.bind_eq_some_iff.mp hf
  rw [(slashFree_of_groupAt? h hinner).through?_eq_none hsegments hlong] at hread
  cases hread

end FieldMap

end ProfileMigration
