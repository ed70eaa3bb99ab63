/-
  ProfileMigration.Proofs.Field.Lookup

  Which field stands at a path, where a tree may hold the path as groups, as flat keys, or mixed:

    Path.IsCut                  -- segments cut into consecutive parts
    Path.Before                 -- of two cuts, the one with the longer first parts
    FieldMap.follow? / through? -- the field that keys, or the parts of a cut, lead to
    FieldMap.FirstLead          -- the first cut of segments whose keys lead to a field
    FieldMap.firstLead_of_fieldAt? -- what is read is what the first such cut leads to
    FieldMap.field?_first       -- so that reading tries every cut, the longest parts first

  A cut that leads nowhere, at whatever depth that shows, does not hide a later one.
-/
import Mathlib.Data.List.Lex
import ProfileMigration.Proofs.Field.Segments

namespace ProfileMigration

namespace Path

/-! ## Cuts of segments -/

/-- Segments cut into consecutive parts, none of them empty. -/
def IsCut (segs : List String) (parts : List (List String)) : Prop :=
  parts.flatten = segs ∧ ∀ part ∈ parts, part ≠ []

/-- Of two cuts, the one that takes more segments into the first part in which they differ. -/
def Before (parts parts' : List (List String)) : Prop :=
  List.Lex (fun part part' => part'.length < part.length) parts parts'

variable {segs part : List String} {parts parts' : List (List String)}

theorem isCut_singleton (h : segs ≠ []) : IsCut segs [segs] :=
  ⟨List.flatten_singleton, List.forall_mem_singleton.mpr h⟩

theorem isCut_cons_iff :
    IsCut segs (part :: parts) ↔ part ++ parts.flatten = segs ∧ part ≠ [] ∧
      IsCut parts.flatten parts := by
  rw [IsCut, IsCut, List.flatten_cons, List.forall_mem_cons]
  exact and_congr_right fun _ => and_congr_right fun _ => (and_iff_right rfl).symm

theorem IsCut.flatten_ne_nil (h : IsCut segs parts) (hne : parts ≠ []) : segs ≠ [] := by
  obtain ⟨part, rest, rfl⟩ := List.exists_cons_of_ne_nil hne
  obtain ⟨happ, hpart, -⟩ := isCut_cons_iff.mp h
  rw [← happ]
  exact List.append_ne_nil_of_left_ne_nil hpart _

theorem not_before_of_before (h : Before parts parts') : ¬ Before parts' parts := by
  have hasymm : Std.Asymm fun part part' : List String => part'.length < part.length :=
    ⟨fun _ _ => Nat.lt_asymm⟩
  exact (List.Lex.asymm _).asymm _ _ h

/-- The ways to cut segments in two come with the longest first part first. -/
theorem pairwise_cuts (segs : List String) :
    (cuts segs).Pairwise fun cut cut' => cut'.1.length < cut.1.length := by
  induction segs with
  | nil => exact .nil
  | cons s rest ih =>
    cases rest with
    | nil => exact .nil
    | cons t more =>
      rw [cuts, List.pairwise_append]
      · refine ⟨List.pairwise_map.mpr (ih.imp Nat.succ_lt_succ), List.pairwise_singleton _ _, ?_⟩
        intro cut hcut last hlast
        obtain ⟨inner, hinner, rfl⟩ := List.mem_map.mp hcut
        obtain rfl := List.mem_singleton.mp hlast
        have hpos := List.length_pos_iff.mpr (of_mem_cuts hinner).2.1
        exact Nat.succ_lt_succ hpos
      · exact List.cons_ne_nil t more

end Path

namespace FieldMap

variable {m : FieldMap} {f : Field} {segs : List String}

/-! ## Keys one after the other -/

/-- The field that keys lead to, one after the other: the last one is looked up in the group that
    the others lead to. -/
def follow? (m : FieldMap) : List String → Option Field
  | [] => none
  | [key] => Keyed.get? key m
  | key :: rest => (m.groupAt? key).bind (follow? · rest)

theorem follow?_cons {rest : List String} (h : rest ≠ []) (m : FieldMap) (key : String) :
    m.follow? (key :: rest) = (m.groupAt? key).bind (·.follow? rest) := by
  obtain ⟨next, more, rfl⟩ := List.exists_cons_of_ne_nil h
  rfl

/-- The field that the parts of a cut lead to, each as one key. -/
def through? (m : FieldMap) (parts : List (List String)) : Option Field :=
  m.follow? (parts.map Path.joined)

theorem through?_cons {parts : List (List String)} (h : parts ≠ []) (m : FieldMap)
    (part : List String) : m.through? (part :: parts) =
      (m.groupAt? (Path.joined part)).bind (·.through? parts) :=
  follow?_cons (mt List.map_eq_nil_iff.mp h) m (Path.joined part)

/-! ## Reading -/

/-- Where a cut leads to a field, one is read. -/
theorem isSome_fieldAt?_of_through? {parts : List (List String)} (hcut : Path.IsCut segs parts)
    (h : (m.through? parts).isSome) : (m.fieldAt? segs).isSome := by
  induction parts generalizing m segs with
  | nil => cases h
  | cons part rest ih =>
    obtain ⟨happ, hpart, hrest⟩ := Path.isCut_cons_iff.mp hcut
    rw [fieldAt?_eq, Option.isSome_or, Bool.or_eq_true]
    by_cases hnil : rest = []
    · subst hnil
      rw [List.flatten_nil, List.append_nil] at happ
      rw [← happ]
      exact .inl h
    · rw [through?_cons hnil] at h
      obtain ⟨f, hf⟩ := Option.isSome_iff_exists.mp h
      obtain ⟨inner, hinner, hfollow⟩ := Option.bind_eq_some_iff.mp hf
      -- The first part and all the others together are one of the ways to cut in two
      have hmem := Path.mem_cuts happ hpart (hrest.flatten_ne_nil hnil)
      refine .inr (List.findSome?_isSome_iff.mpr ⟨_, hmem, ?_⟩)
      rw [hinner, Option.bind_some]
      exact ih hrest (Option.isSome_of_eq_some hfollow)

/-- The first cut of segments whose keys lead to a field, and that field. -/
structure FirstLead (m : FieldMap) (segs : List String) (parts : List (List String)) (f : Field) :
    Prop where
  cut : Path.IsCut segs parts
  leads : m.through? parts = some f
  first : ∀ other, Path.IsCut segs other → (m.through? other).isSome →
    other = parts ∨ Path.Before parts other

theorem FirstLead.unique {parts parts' : List (List String)} {f' : Field}
    (h : m.FirstLead segs parts f) (h' : m.FirstLead segs parts' f') : f' = f := by
  have hsame : parts' = parts := by
    rcases h.first parts' h'.cut (Option.isSome_of_eq_some h'.leads) with hsame | hbefore
    · exact hsame
    · refine (h'.first parts h.cut (Option.isSome_of_eq_some h.leads)).elim Eq.symm fun hafter => ?_
      exact absurd hafter (Path.not_before_of_before hbefore)
  exact Option.some.inj (h'.leads.symm.trans (hsame ▸ h.leads))

/-- All segments as one key come before every other cut. -/
theorem firstLead_whole (hsegs : segs ≠ []) (h : Keyed.get? (Path.joined segs) m = some f) :
    m.FirstLead segs [segs] f where
  cut := Path.isCut_singleton hsegs
  leads := h
  first := by
    intro other hother hleads
    cases other with
    | nil => cases hleads
    | cons part rest =>
      obtain ⟨happ, -, hrest⟩ := Path.isCut_cons_iff.mp hother
      by_cases hnil : rest = []
      · subst hnil
        rw [List.flatten_nil, List.append_nil] at happ
        exact .inl (congrArg (fun part => [part]) happ)
      · refine .inr (.rel ?_)
        have hpos := List.length_pos_iff.mpr (hrest.flatten_ne_nil hnil)
        rw [← happ, List.length_append]
        omega

/-- Below the group under a first part, the first cut is the first one in the group, if no longer
    first part leads to a field. -/
theorem FirstLead.below {inner : FieldMap} {head tail : List String} {parts : List (List String)}
    {longer shorter : List (List String × List String)} (h : inner.FirstLead tail parts f)
    (hwhole : Keyed.get? (Path.joined segs) m = none)
    (hsplit : Path.cuts segs = longer ++ (head, tail) :: shorter)
    (hlonger : ∀ cut ∈ longer,
      (m.groupAt? (Path.joined cut.1)).bind (·.fieldAt? cut.2) = none)
    (hinner : m.groupAt? (Path.joined head) = some inner) :
    m.FirstLead segs (head :: parts) f := by
  have hmem : (head, tail) ∈ Path.cuts segs := by
    rw [hsplit]
    exact List.mem_append_right _ List.mem_cons_self
  obtain ⟨happ, hhead, htail⟩ := Path.of_mem_cuts hmem
  have hne : parts ≠ [] := by
    rintro rfl
    exact htail h.cut.1.symm
  refine ⟨Path.isCut_cons_iff.mpr ?_, ?_, ?_⟩
  · rw [h.cut.1]
    exact ⟨happ, hhead, h.cut⟩
  · rw [through?_cons hne, hinner, Option.bind_some, h.leads]
  · intro other hother hleads
    cases other with
    | nil => cases hleads
    | cons part rest =>
      obtain ⟨happ', hpart, hrest⟩ := Path.isCut_cons_iff.mp hother
      by_cases hnil : rest = []
      · subst hnil
        rw [List.flatten_nil, List.append_nil] at happ'
        rw [happ', through?, List.map_singleton, follow?, hwhole] at hleads
        cases hleads
      · rw [through?_cons hnil] at hleads
        obtain ⟨g, hg⟩ := Option.isSome_iff_exists.mp hleads
        obtain ⟨inner', hinner', hthrough⟩ := Option.bind_eq_some_iff.mp hg
        have hsome := Option.isSome_of_eq_some hthrough
        -- The first part is one that has been tried before, the same, or a shorter one
        have hcut := Path.mem_cuts happ' hpart (hrest.flatten_ne_nil hnil)
        rw [hsplit, List.mem_append, List.mem_cons] at hcut
        rcases hcut with hcut | hcut | hcut
        · have hnowhere := hlonger _ hcut
          have hread := isSome_fieldAt?_of_through? hrest hsome
          rw [hinner', Option.bind_some] at hnowhere
          rw [hnowhere] at hread
          cases hread
        · obtain ⟨rfl, hflatten⟩ := Prod.mk.inj hcut
          obtain rfl := Option.some.inj (hinner'.symm.trans hinner)
          rw [hflatten] at hrest
          exact (h.first rest hrest hsome).imp (congrArg (part :: ·)) .cons
        · have hpairwise := Path.pairwise_cuts segs
          rw [hsplit, List.pairwise_append, List.pairwise_cons] at hpairwise
          exact .inr (.rel (hpairwise.2.1.1 _ hcut))

/-- What is read is the field that the first cut leads to of those that lead to any. -/
theorem firstLead_of_fieldAt? (segs : List String) (m : FieldMap) (hsegs : segs ≠ [])
    (h : m.fieldAt? segs = some f) : ∃ parts, m.FirstLead segs parts f := by
  rw [fieldAt?_eq, Option.or_eq_some_iff] at h
  rcases h with hwhole | ⟨hwhole, hsearch⟩
  · exact ⟨[segs], firstLead_whole hsegs hwhole⟩
  · obtain ⟨longer, ⟨head, tail⟩, shorter, hsplit, hfound, hlonger⟩ :=
      List.findSome?_eq_some_iff.mp hsearch
    obtain ⟨inner, hinner, hread⟩ := Option.bind_eq_some_iff.mp hfound
    have hmem : (head, tail) ∈ Path.cuts segs := by
      rw [hsplit]
      exact List.mem_append_right _ List.mem_cons_self
    have hlength : tail.length < segs.length := Path.length_tail_lt_of_mem_cuts hmem
    obtain ⟨parts, hparts⟩ := firstLead_of_fieldAt? tail inner (Path.of_mem_cuts hmem).2.2 hread
    exact ⟨head :: parts, hparts.below hwhole hsplit hlonger hinner⟩
termination_by segs.length

/-- A field is read at a path exactly if the segments of the path can be cut into keys that lead
    to one through groups. The field that is read is the one that the first such cut leads to, where
    the first key is taken as long as possible, then the second, and so on. -/
theorem field?_first (m : FieldMap) (path : String) :
    ((m.field? path).isSome ↔
      ∃ parts, Path.IsCut (Path.segments path) parts ∧ (m.through? parts).isSome) ∧
    ∀ f, m.field? path = some f ↔
      ∃ parts, Path.IsCut (Path.segments path) parts ∧ m.through? parts = some f ∧
        ∀ other, Path.IsCut (Path.segments path) other → (m.through? other).isSome →
          other = parts ∨ Path.Before parts other := by
  have hsegs := Path.segments_ne_nil path
  have hfirst : ∀ f, m.field? path = some f → ∃ parts, m.FirstLead (Path.segments path) parts f :=
    fun f => firstLead_of_fieldAt? _ m hsegs
  refine ⟨⟨fun h => ?_, ?_⟩, fun f => ⟨fun h => ?_, ?_⟩⟩
  · obtain ⟨f, hf⟩ := Option.isSome_iff_exists.mp h
    obtain ⟨parts, hparts⟩ := hfirst f hf
    exact ⟨parts, hparts.cut, Option.isSome_of_eq_some hparts.leads⟩
  · rintro ⟨parts, hcut, hleads⟩
    exact isSome_fieldAt?_of_through? hcut hleads
  · obtain ⟨parts, hparts⟩ := hfirst f h
    exact ⟨parts, hparts.cut, hparts.leads, hparts.first⟩
  · rintro ⟨parts, hcut, hleads, hleast⟩
    have hsome := isSome_fieldAt?_of_through? hcut (Option.isSome_of_eq_some hleads)
    obtain ⟨g, hg⟩ := Option.isSome_iff_exists.mp hsome
    obtain ⟨parts', hparts'⟩ := hfirst g hg
    rw [hparts'.unique ⟨hcut, hleads, hleast⟩]
    exact hg

/-- The longest key leads to a group without the rest of the path, and does not hide it. -/
example : FieldMap.field? [("a", .group [("b/c", .text "x")]), ("a/b", .group [])] "a/b/c" =
    some (.text "x") := by
  decide +kernel

end FieldMap

end ProfileMigration
