/-
  ProfileMigration.Proofs.Field.Writing

  What is read from a field tree after something has been written into it:

    Field.SlashFree             -- no name that groups lead to has a slash
    FieldMap.SlashFree.setAt    -- writing keeps that
    FieldMap.fieldAt?_setAt_self -- what is written is read back
    Path.Apart                  -- neither of two paths leads through the other
    FieldMap.fieldAt?_setAt_of_apart -- and then nothing else is read at the other
    FieldMap.set_one_place      -- writing changes exactly one place
-/
import ProfileMigration.Proofs.Field.Segments
import ProfileMigration.Proofs.Text.KeyedLookup
import ProfileMigration.Proofs.Text.KeyedOrder

namespace ProfileMigration

/-! ## Names without slashes -/

namespace Field

mutual

/-- No name that groups lead to has a slash; what is in items does not matter. -/
def SlashFree : Field → Prop
  | .value _ => True
  | .group fields => AllSlashFree fields
  | .items _ => True

/-- The same for named fields. -/
def AllSlashFree : List (String × Field) → Prop
  | [] => True
  | (k, f) :: rest => Path.Single k ∧ SlashFree f ∧ AllSlashFree rest

end

theorem allSlashFree_iff {m : FieldMap} :
    AllSlashFree m ↔ ∀ e ∈ m, Path.Single e.1 ∧ e.2.SlashFree := by
  induction m with
  | nil => exact iff_of_true trivial (List.forall_mem_nil _)
  | cons entry rest ih => rw [AllSlashFree, ih, List.forall_mem_cons, and_assoc]

theorem slashFree_value (v : TypedValue) : (value v).SlashFree := trivial

theorem slashFree_items (rows : List FieldMap) : (items rows).SlashFree := trivial

end Field

namespace FieldMap

/-- No name of a field tree has a slash, through groups. -/
def SlashFree (m : FieldMap) : Prop := Field.AllSlashFree m

variable {m : FieldMap} {f : Field}

theorem slashFree_nil : FieldMap.SlashFree [] := trivial

theorem SlashFree.insert (h : m.SlashFree) {key : String} (hkey : Path.Single key)
    (hf : f.SlashFree) : FieldMap.SlashFree (Keyed.insert key f m) := by
  refine Field.allSlashFree_iff.mpr fun e he => ?_
  rcases Keyed.mem_insert he with rfl | he
  · exact ⟨hkey, hf⟩
  · exact Field.allSlashFree_iff.mp h e he

theorem slashFree_of_groupAt? (h : ∀ e ∈ m, e.2.SlashFree) {key : String} {inner : FieldMap}
    (hinner : m.groupAt? key = some inner) : inner.SlashFree := by
  obtain ⟨field, hfield, hgroup⟩ := Option.bind_eq_some_iff.mp hinner
  have hfree := h _ (Keyed.mem_of_get? hfield)
  cases field with
  | group fields =>
    obtain rfl := Option.some.inj hgroup
    exact hfree
  | value v => cases hgroup
  | items rows => cases hgroup

theorem SlashFree.groupAt? (h : m.SlashFree) {key : String} {inner : FieldMap}
    (hinner : m.groupAt? key = some inner) : inner.SlashFree :=
  slashFree_of_groupAt? (fun e he => (Field.allSlashFree_iff.mp h e he).2) hinner

/-- The group that is written into: the one under a name, or an empty one. -/
theorem setAt_cons {rest : List String} (hrest : rest ≠ []) (m : FieldMap) (s : String)
    (f : Field) : m.setAt (s :: rest) f =
      Keyed.insert s (.group (FieldMap.setAt ((m.groupAt? s).getD []) rest f)) m := by
  obtain ⟨t, more, rfl⟩ := List.exists_cons_of_ne_nil hrest
  rw [setAt, FieldMap.groupAt?]
  · rcases Keyed.get? s m with _ | ⟨_ | _ | _⟩
    all_goals rfl
  · exact List.cons_ne_nil t more

theorem SlashFree.groupAt?_getD (h : m.SlashFree) (key : String) :
    FieldMap.SlashFree ((m.groupAt? key).getD []) := by
  cases hinner : m.groupAt? key with
  | none => exact slashFree_nil
  | some inner => exact h.groupAt? hinner

theorem SlashFree.setAt (h : m.SlashFree) {segs : List String}
    (hsegs : ∀ s ∈ segs, Path.Single s) (hf : f.SlashFree) : (m.setAt segs f).SlashFree := by
  induction segs generalizing m with
  | nil => exact h
  | cons s rest ih =>
    obtain ⟨hs, hrest⟩ := List.forall_mem_cons.mp hsegs
    by_cases hnil : rest = []
    · subst hnil
      exact h.insert hs hf
    · rw [setAt_cons hnil]
      exact h.insert hs (ih (h.groupAt?_getD s) hrest)

theorem SlashFree.set (h : m.SlashFree) (path : String) (hf : f.SlashFree) :
    (m.set path f).SlashFree :=
  h.setAt (Path.isSegments_segments path).2 hf

theorem SlashFree.single (h : m.SlashFree) : ∀ e ∈ m, Path.Single e.1 :=
  fun e he => (Field.allSlashFree_iff.mp h e he).1

/-- The names at the top of a tree have no slash after a field has been written below one. -/
theorem single_setAt (h : ∀ e ∈ m, Path.Single e.1) {segs : List String}
    (hsegs : ∀ s ∈ segs, Path.Single s) : ∀ e ∈ m.setAt segs f, Path.Single e.1 := by
  cases segs with
  | nil => exact h
  | cons s rest =>
    have hinsert : ∀ field, ∀ e ∈ Keyed.insert s field m, Path.Single e.1 := by
      intro field e he
      rcases Keyed.mem_insert he with rfl | he
      · exact hsegs s List.mem_cons_self
      · exact h e he
    by_cases hnil : rest = []
    · subst hnil
      exact hinsert f
    · rw [setAt_cons hnil]
      exact hinsert _

/-! ## Reading through groups -/

theorem fieldAt?_singleton (m : FieldMap) (s : String) : m.fieldAt? [s] = Keyed.get? s m := by
  rw [fieldAt?_eq, Path.joined_singleton]
  exact Option.or_none

/-- Without slashes in the names at the top, a path leads through the group under its first name,
    whatever is in that. -/
theorem fieldAt?_cons_of_single (h : ∀ e ∈ m, Path.Single e.1) {s : String} {rest : List String}
    (hs : Path.Single s) (hrest : rest ≠ []) :
    m.fieldAt? (s :: rest) = (m.groupAt? s).bind (·.fieldAt? rest) := by
  have hfree : ∀ path, Keyed.get? (s ++ "/" ++ path) m = none := by
    intro path
    by_contra hne
    obtain ⟨field, hfield⟩ := Option.ne_none_iff_exists'.mp hne
    have hsegments := h _ (Keyed.mem_of_get? hfield)
    rw [Path.Single, Path.segments_below hs] at hsegments
    exact Path.segments_ne_nil path (List.cons.inj hsegments).2
  have hcuts : (Path.cuts rest).findSome? (fun cut =>
      (m.groupAt? (s ++ "/" ++ Path.joined cut.1)).bind (·.fieldAt? cut.2)) = none := by
    refine List.findSome?_eq_none_iff.mpr fun cut _ => ?_
    rw [FieldMap.groupAt?, hfree]
    rfl
  rw [fieldAt?_cons hrest, hfree, hcuts, Option.none_or, Option.none_or]

theorem groupAt?_insert_self (m : FieldMap) (key : String) (fields : FieldMap) :
    groupAt? (Keyed.insert key (.group fields) m) key = some fields := by
  rw [groupAt?, Keyed.get?_insert_self]
  rfl

/-- What is written is read back, also where it has names with slashes itself. -/
theorem fieldAt?_setAt_self (h : m.SlashFree) {segs : List String} (hsegs : Path.IsSegments segs)
    (f : Field) : (m.setAt segs f).fieldAt? segs = some f := by
  obtain ⟨hne, hsingle⟩ := hsegs
  induction segs generalizing m with
  | nil => exact absurd rfl hne
  | cons s rest ih =>
    obtain ⟨hs, hrest⟩ := List.forall_mem_cons.mp hsingle
    by_cases hnil : rest = []
    · subst hnil
      rw [fieldAt?_singleton]
      exact Keyed.get?_insert_self s f m
    · have htop : ∀ e ∈ m.setAt (s :: rest) f, Path.Single e.1 := single_setAt h.single hsingle
      rw [fieldAt?_cons_of_single htop hs hnil, setAt_cons hnil, groupAt?_insert_self,
        Option.bind_some]
      exact ih (h.groupAt?_getD s) hnil hrest

end FieldMap

/-! ## Paths beside each other -/

/-- Neither of two paths leads through the other. -/
def Path.Apart (p q : List String) : Prop := ¬ p <+: q ∧ ¬ q <+: p

instance (p q : List String) : Decidable (Path.Apart p q) := inferInstanceAs (Decidable (_ ∧ _))

namespace FieldMap

variable {m : FieldMap} {f : Field}

/-- What is written below one name is not read below another one. -/
theorem fieldAt?_insert_of_ne {key s : String} {rest : List String}
    (hsegs : Path.IsSegments (s :: rest)) (hkey : Path.Single key) (hne : s ≠ key) :
    FieldMap.fieldAt? (Keyed.insert key f m) (s :: rest) = m.fieldAt? (s :: rest) := by
  refine fieldAt?_congr hsegs.1 fun head tail happ hhead => Keyed.get?_insert_of_ne ?_ f m
  rintro rfl
  -- The name that first segments make begins with the first one
  obtain ⟨s', more, rfl⟩ := List.exists_cons_of_ne_nil hhead
  obtain ⟨rfl, -⟩ := List.cons.inj happ
  have hfirst := Path.head?_segments_joined (hsegs.2 _ List.mem_cons_self) more
  rw [hkey] at hfirst
  exact hne (Option.some.inj hfirst).symm

/-- What is written is read nowhere else than at its path, below it, and on the way to it. -/
theorem fieldAt?_setAt_of_apart (h : m.SlashFree) {p q : List String} (hp : Path.IsSegments p)
    (hq : Path.IsSegments q) (f : Field) (hapart : Path.Apart p q) :
    (m.setAt p f).fieldAt? q = m.fieldAt? q := by
  induction p generalizing m q with
  | nil => exact absurd rfl hp.1
  | cons s rest ih =>
    obtain ⟨hs, hrest⟩ := List.forall_mem_cons.mp hp.2
    obtain ⟨s', rest', rfl⟩ := List.exists_cons_of_ne_nil hq.1
    obtain ⟨hs', hrest'⟩ := List.forall_mem_cons.mp hq.2
    by_cases hsame : s' = s
    · subst hsame
      obtain ⟨hnot, hnot'⟩ := hapart
      rw [List.prefix_cons_inj] at hnot hnot'
      have hnil : rest ≠ [] := by
        rintro rfl
        exact hnot (List.nil_prefix)
      have hnil' : rest' ≠ [] := by
        rintro rfl
        exact hnot' (List.nil_prefix)
      have htop : ∀ e ∈ m.setAt (s' :: rest) f, Path.Single e.1 := single_setAt h.single hp.2
      have hinner := ih (h.groupAt?_getD s') ⟨hnil, hrest⟩ ⟨hnil', hrest'⟩ ⟨hnot, hnot'⟩
      rw [fieldAt?_cons_of_single htop hs hnil', fieldAt?_cons_of_single h.single hs hnil',
        setAt_cons hnil, groupAt?_insert_self, Option.bind_some, hinner]
      cases m.groupAt? s' with
      | none =>
        -- A new group has nothing in it yet
        rw [Option.getD_none, ← Path.segments_joined ⟨hnil', hrest'⟩]
        exact field?_nil _
      | some inner => rfl
    · by_cases hnil : rest = []
      · subst hnil
        exact fieldAt?_insert_of_ne hq hs hsame
      · rw [setAt_cons hnil]
        exact fieldAt?_insert_of_ne hq hs hsame

/-! ## At paths -/

theorem field?_set_self (h : m.SlashFree) (path : String) (f : Field) :
    (m.set path f).field? path = some f :=
  fieldAt?_setAt_self h (Path.isSegments_segments path) f

theorem field?_insert_of_head_ne {name path : String} (hname : Path.Single name)
    (h : (Path.segments path).head? ≠ some name) (f : Field) (m : FieldMap) :
    FieldMap.field? (Keyed.insert name f m) path = m.field? path := by
  have hsegs := Path.isSegments_segments path
  rw [field?, field?]
  obtain ⟨s, rest, hcons⟩ := List.exists_cons_of_ne_nil hsegs.1
  rw [hcons] at hsegs h ⊢
  exact fieldAt?_insert_of_ne hsegs hname fun heq => h (congrArg some heq)

/-- What is written below one name is not read below another one. -/
theorem field?_set_of_head_ne {path other : String}
    (h : (Path.segments path).head? ≠ (Path.segments other).head?) :
    (m.set path f).field? other = m.field? other := by
  have hsegs := Path.isSegments_segments other
  refine fieldAt?_congr hsegs.1 fun head tail happ hhead => get?_set_of_head_ne fun hkey => h ?_
  -- The name that first segments make begins with the first one
  obtain ⟨s, more, rfl⟩ := List.exists_cons_of_ne_nil hhead
  have hs : Path.Single s := hsegs.2 s (happ ▸ List.mem_cons_self)
  have hsingle : Path.Single (Path.joined (s :: more)) :=
    Path.single_of_mem_segments (List.mem_of_head? hkey)
  have hfirst := Path.head?_segments_joined hs more
  rw [hsingle, List.head?_cons] at hfirst
  rw [hkey, hfirst, ← happ]
  rfl

theorem field?_set_of_apart (h : m.SlashFree) {path other : String} (f : Field)
    (hapart : Path.Apart (Path.segments path) (Path.segments other)) :
    (m.set path f).field? other = m.field? other :=
  fieldAt?_setAt_of_apart h (Path.isSegments_segments path) (Path.isSegments_segments other) f
    hapart

/-! ## One place -/

/-- A tree that has been written field by field, none of which has names with slashes, has none
    either. -/
theorem slashFree_written {writes : List (String × Field)} (h : ∀ w ∈ writes, w.2.SlashFree) :
    FieldMap.SlashFree (writes.foldl (fun m (path, f) => FieldMap.set m path f) []) := by
  refine List.foldlRecOn (motive := FieldMap.SlashFree) writes _ slashFree_nil ?_
  -- One more write keeps it so
  intro m hm w hw
  exact hm.set w.1 (h w hw)

/-- Writing into a tree without slashes in its names changes exactly one place: what is written is
    read there, whatever it is; every path beside it reads as before, also where something on the
    way had to make room for a group; and unless what is written has names with slashes, the tree
    has none, which goes for all trees that are made by writing. -/
theorem set_one_place :
    (∀ writes : List (String × Field), (∀ w ∈ writes, w.2.SlashFree) →
      FieldMap.SlashFree (writes.foldl (fun m (path, f) => FieldMap.set m path f) [])) ∧
    ∀ m : FieldMap, m.SlashFree → ∀ (path : String) (f : Field),
      (m.set path f).field? path = some f ∧
      (∀ other, Path.Apart (Path.segments path) (Path.segments other) →
        (m.set path f).field? other = m.field? other) ∧
      (f.SlashFree → (m.set path f).SlashFree) := by
  refine ⟨fun writes hwrites => slashFree_written hwrites,
    fun m hm path f => ⟨?self, ?others, ?free⟩⟩
  case self => exact field?_set_self hm path f
  case others => exact fun other hapart => field?_set_of_apart hm f hapart
  case free => exact fun hf => hm.set path hf

/-- A value on the way makes room for a group, and a path with an empty segment is beside it. -/
theorem set_one_place_over_value :
    let m := FieldMap.set (FieldMap.set [] "a" (.text "x")) "b/" (.text "y")
    let f : Field := .items [[("c/d", .text "z")]]
    m.SlashFree ∧ f.SlashFree ∧ Path.Apart (Path.segments "a/c") (Path.segments "b/") ∧
      (m.set "a/c" f).field? "a/c" = some f ∧
      (m.set "a/c" f).field? "b/" = some (.text "y") ∧ (m.set "a/c" f).SlashFree := by
  intro m f
  have hwrites : ∀ w ∈ [("a", Field.text "x"), ("b/", Field.text "y")], w.2.SlashFree :=
    List.forall_mem_cons.mpr ⟨trivial, List.forall_mem_singleton.mpr trivial⟩
  have hm : m.SlashFree := set_one_place.1 [("a", .text "x"), ("b/", .text "y")] hwrites
  have hf : f.SlashFree := Field.slashFree_items _
  have hapart : Path.Apart (Path.segments "a/c") (Path.segments "b/") := by decide +kernel
  have hread : m.field? "b/" = some (.text "y") := by decide +kernel
  obtain ⟨hself, hothers, hfree⟩ := set_one_place.2 m hm "a/c" f
  exact ⟨hm, hf, hapart, hself, (hothers "b/" hapart).trans hread, hfree hf⟩

end FieldMap

end ProfileMigration
