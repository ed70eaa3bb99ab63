/-
  ProfileMigration.Proofs.Build.Schedule

  A build as a sequence of turns, one for each queued parcel:

    Draft.schedule              -- the order of turns, which no answer of the manager changes
    Draft.schedule_perm_queue   -- every queued parcel has its turn
    Build.Runs.foldl            -- parcels in a row, one turn each
    Build.Runs.families         -- parents and their children
    Draft.buildParcels_runs     -- a whole build runs through its schedule
-/
import ProfileMigration.Proofs.Build.Turn

namespace ProfileMigration

/-! ## The order of turns -/

/-- The turns of parents and children: each parent before the children under its tag that no
    parent before it has taken, and the children without a parent at the end. -/
def scheduleFamilies : List (Tag × Parcel) → List (Tag × Parcel) → List (Seat × Parcel)
  | [], children => children.map fun (tag, p) => (.child tag, p)
  | (tag, parent) :: parents, children =>
    (.parent tag, parent) ::
      ((children.filter fun c => c.1 = tag).map fun c => (.child c.1, c.2)) ++
      scheduleFamilies parents (children.filter fun c => ¬ c.1 = tag)

namespace Draft

/-- The turns of a build, in order. -/
def schedule (d : Draft) : List (Seat × Parcel) :=
  d.parcels.map (.alone, ·) ++ scheduleFamilies d.parents d.children

/-- Everything that is queued, as it is queued. -/
def queue (d : Draft) : List (Seat × Parcel) :=
  d.parcels.map (.alone, ·) ++ (d.parents.map fun (tag, p) => (.parent tag, p)) ++
    d.children.map fun (tag, p) => (.child tag, p)

end Draft

theorem scheduleFamilies_perm (parents children : List (Tag × Parcel)) :
    (scheduleFamilies parents children).Perm
      ((parents.map fun (tag, p) => (.parent tag, p)) ++
        children.map fun (tag, p) => (.child tag, p)) := by
  induction parents generalizing children with
  | nil => exact .refl _
  | cons entry rest ih =>
    obtain ⟨tag, parent⟩ := entry
    -- The children that a parent takes and those that it leaves are all of them
    have hsplit := List.filter_append_perm (fun c : Tag × Parcel => decide (c.1 = tag)) children
    simp only [scheduleFamilies, List.map_cons, List.cons_append]
    refine .cons _ ?_
    refine ((ih _).append_left _).trans ?_
    rw [← List.append_assoc]
    refine (List.perm_append_comm.append_right _).trans ?_
    rw [List.append_assoc, ← List.map_append]
    refine .append_left _ ?_
    refine (List.Perm.map _ ?_)
    simpa using hsplit

/-- Every queued parcel has its turn, and nothing else has. -/
theorem Draft.schedule_perm_queue (d : Draft) : d.schedule.Perm d.queue := by
  rw [schedule, queue]
  rw [List.append_assoc]
  exact (scheduleFamilies_perm d.parents d.children).append_left _

/-- No turn of a parcel on its own is among those of parents and children. -/
theorem seat_ne_alone_of_mem_scheduleFamilies {parents children : List (Tag × Parcel)}
    {slot : Seat × Parcel} (h : slot ∈ scheduleFamilies parents children) : slot.1 ≠ .alone := by
  rw [(scheduleFamilies_perm parents children).mem_iff, List.mem_append, List.mem_map,
    List.mem_map] at h
  rcases h with ⟨c, -, rfl⟩ | ⟨c, -, rfl⟩
  · nofun
  · nofun

/-- A child comes after a parent under its tag, if one is queued. -/
theorem exists_parent_of_scheduleFamilies_eq {parents children : List (Tag × Parcel)}
    {before after : List (Seat × Parcel)} {tag : Tag} {p q : Parcel}
    (h : scheduleFamilies parents children = before ++ (.child tag, p) :: after)
    (hq : (tag, q) ∈ parents) : ∃ q', (Seat.parent tag, q') ∈ before := by
  induction parents generalizing children before with
  | nil => exact absurd hq List.not_mem_nil
  | cons entry parents ih =>
    obtain ⟨tag', parent⟩ := entry
    by_cases htag : tag = tag'
    · -- The turn of the parent is the first of all, and not that of a child
      rw [scheduleFamilies, ← htag] at h
      cases before with
      | nil => cases h
      | cons slot before =>
        obtain ⟨rfl, -⟩ := List.cons.inj h
        exact ⟨parent, List.mem_cons_self⟩
    · have hrest : (tag, q) ∈ parents := by
        rcases List.mem_cons.mp hq with heq | hmem
        · exact absurd (congrArg Prod.fst heq) htag
        · exact hmem
      -- The first parent takes no child under another tag
      obtain ⟨between, rfl, hlater⟩ := split_of_not_mem (by
        rw [List.mem_cons, List.mem_map]
        rintro (hparent | ⟨c, hc, hchild⟩)
        · cases hparent
        · have hc := of_decide_eq_true (List.mem_filter.mp hc).2
          cases hchild
          exact htag hc) h
      obtain ⟨q', hq'⟩ := ih hlater hrest
      exact ⟨q', List.mem_append_right _ hq'⟩

/-! ## A whole build -/

namespace Build

variable {σ : Type} {m : Manager σ} {b₀ b : Build σ} {turns : List Turn}

/-- A parcel created in the profile itself, whose turn stands before all that follows. -/
theorem Runs.createTop (h : Runs m b₀ turns b) (p : Parcel) :
    ∃ fate, Sent (Turn.known b₀.ids turns) (pathBelow b₀.report.profilePath p.type) p fate ∧
      fate.id? = (b.createTop m p).1 ∧
      ∀ seat, Turned m b ⟨seat, p, fate⟩ (b.createTop m p).2 := by
  have hturn := turned_create m (pathBelow b.report.profilePath p.type) p b
  rw [h.ids, h.profilePath] at hturn
  rw [Build.createTop]
  rw [h.profilePath]
  exact hturn

theorem Runs.alone (h : Runs m b₀ turns b) (p : Parcel) :
    ∃ t : Turn, t.slot = (.alone, p) ∧ Runs m b₀ (turns ++ [t]) (b.createTop m p).2 := by
  obtain ⟨fate, hsent, -, hturned⟩ := h.createTop p
  exact ⟨⟨.alone, p, fate⟩, rfl, h.snoc (.alone hsent) (hturned .alone)⟩

theorem Runs.parent (h : Runs m b₀ turns b) (tag : Tag) (p : Parcel) :
    ∃ fate, fate.id? = (b.createTop m p).1 ∧
      Runs m b₀ (turns ++ [⟨.parent tag, p, fate⟩]) (b.createTop m p).2 := by
  obtain ⟨fate, hsent, hid, hturned⟩ := h.createTop p
  exact ⟨fate, hid, h.snoc (.parent hsent) (hturned (.parent tag))⟩

theorem Runs.orphan (h : Runs m b₀ turns b) {tag : Tag} (htag : Turn.parentOf turns tag = none)
    (p : Parcel) :
    ∃ t : Turn, t.slot = (.child tag, p) ∧
      Runs m b₀ (turns ++ [t]) (b.fail p "no parent queued under its tag") :=
  ⟨_, rfl, h.snoc (.orphan htag) (turned_fail m b (.child tag) p _)⟩

theorem Runs.bereft (h : Runs m b₀ turns b) {tag : Tag} {q : Turn}
    (htag : Turn.parentOf turns tag = some q) (hid : q.fate.id? = none) (p : Parcel) :
    ∃ t : Turn, t.slot = (.child tag, p) ∧
      Runs m b₀ (turns ++ [t]) (b.fail p ("parent '" ++ q.parcel.name ++ "' was not created")) :=
  ⟨_, rfl, h.snoc (.bereft htag hid) (turned_fail m b (.child tag) p _)⟩

theorem Runs.child (h : Runs m b₀ turns b) {tag : Tag} {q : Turn} {id : Uuid}
    (htag : Turn.parentOf turns tag = some q) (hid : q.fate.id? = some id) (p : Parcel) :
    ∃ t : Turn, t.slot = (.child tag, p) ∧
      Runs m b₀ (turns ++ [t])
        (Build.child m (parentPath b₀.report.profilePath q.parcel id) b p) := by
  rw [Build.child]
  cases hmode : p.type.childMode with
  | nested =>
    have hturn := turned_create m
      (pathBelow (parentPath b₀.report.profilePath q.parcel id) p.type) p b
    rw [h.ids] at hturn
    obtain ⟨fate, hsent, -, hturned⟩ := hturn
    exact ⟨⟨.child tag, p, fate⟩, rfl,
      h.snoc (.nested htag hid hmode hsent) (hturned (.child tag))⟩
  | associate =>
    dsimp only
    obtain ⟨fate, hsent, hfate, hturned⟩ := h.createTop p
    rcases hcreate : b.createTop m p with ⟨own?, b'⟩
    rw [hcreate] at hfate hturned
    cases own? with
    | none =>
      exact ⟨⟨.child tag, p, fate⟩, rfl,
        h.snoc (.unbound htag hid hmode hsent hfate) (hturned (.child tag))⟩
    | some own =>
      -- Only a created parcel has an identifier, and then its parent is asked
      cases hsent with
      | unbound _ | failed _ | nameless _ _ => simp [Fate.id?] at hfate
      | created hrequest hown =>
        obtain rfl := Option.some.inj hfate
        obtain ⟨binding, hbinding, hbound⟩ := turned_associate (hturned (.child tag))
          (parentPath b₀.report.profilePath q.parcel id)
        exact ⟨_, rfl, h.snoc (.bound htag hid hmode (.created hrequest hown) hbinding) hbound⟩

/-- A list of parcels, one turn each, whatever the turns of those before. -/
theorem Runs.foldl {α : Type} (step : Build σ → α → Build σ) (slot : α → Seat × Parcel)
    (xs : List α) (h : Runs m b₀ turns b)
    (hstep : ∀ x ∈ xs, ∀ (more : List Turn) (b : Build σ),
      (∀ t ∈ more, t.slot ∈ xs.map slot) → Runs m b₀ (turns ++ more) b →
        ∃ t : Turn, t.slot = slot x ∧ Runs m b₀ (turns ++ more ++ [t]) (step b x)) :
    ∃ more : List Turn, more.map Turn.slot = xs.map slot ∧
      Runs m b₀ (turns ++ more) (xs.foldl step b) := by
  -- Turns that have been added are of the list, and so is what is left to do
  suffices hgo : ∀ (todo : List α) (more : List Turn) (b : Build σ), (∀ x ∈ todo, x ∈ xs) →
      (∀ t ∈ more, t.slot ∈ xs.map slot) → Runs m b₀ (turns ++ more) b →
      ∃ rest : List Turn, rest.map Turn.slot = todo.map slot ∧
        Runs m b₀ (turns ++ more ++ rest) (todo.foldl step b) by
    obtain ⟨rest, hslots, hruns⟩ := hgo xs [] b (fun _ hx => hx)
      (fun _ ht => absurd ht List.not_mem_nil) (by rwa [List.append_nil])
    exact ⟨rest, hslots, by rwa [List.append_nil] at hruns⟩
  intro todo
  induction todo with
  | nil =>
    intro more b _ _ hruns
    exact ⟨[], rfl, by rwa [List.append_nil]⟩
  | cons x todo ih =>
    intro more b htodo hmore hruns
    have hx := htodo x List.mem_cons_self
    obtain ⟨t, ht, hturn⟩ := hstep x hx more b hmore hruns
    have hmore' : ∀ t' ∈ more ++ [t], t'.slot ∈ xs.map slot := by
      intro t' ht'
      rcases List.mem_append.mp ht' with hold | hnew
      · exact hmore t' hold
      · rw [List.mem_singleton.mp hnew, ht]
        exact List.mem_map_of_mem hx
    rw [List.append_assoc] at hturn
    obtain ⟨rest, hslots, hrest⟩ := ih (more ++ [t]) (step b x)
      (fun y hy => htodo y (List.mem_cons_of_mem x hy)) hmore' hturn
    refine ⟨t :: rest, by rw [List.map_cons, List.map_cons, ht, hslots], ?_⟩
    rw [List.append_assoc] at hrest ⊢
    rwa [List.append_assoc] at hrest

/-- A parent that no turn before was of, and then its children. -/
theorem Runs.family (h : Runs m b₀ turns b) (tag : Tag) (parent : Parcel)
    (children : List (Tag × Parcel))
    (hchildren : ∀ c ∈ children, c.1 = tag ∧ Turn.parentOf turns tag = none) :
    ∃ more : List Turn,
      more.map Turn.slot = (.parent tag, parent) :: children.map (fun c => (.child c.1, c.2)) ∧
        Runs m b₀ (turns ++ more) (b.family m parent (children.map (·.2))) := by
  obtain ⟨fate, hid, hparent⟩ := h.parent tag parent
  -- No parent under the tag came before this one, which all its children therefore find
  have htag : ∀ c ∈ children, ∀ more,
      Turn.parentOf (turns ++ [⟨.parent tag, parent, fate⟩] ++ more) c.1 =
        some ⟨.parent tag, parent, fate⟩ := by
    intro c hc more
    obtain ⟨hctag, hnone⟩ := hchildren c hc
    refine Turn.parentOf_append_of_some ?_ more
    rw [hctag, Turn.parentOf_append_of_none hnone]
    simp [Turn.parentOf]
  have hprofile := hparent.profilePath
  rw [Build.family]
  rcases hcreate : b.createTop m parent with ⟨id?, b'⟩
  rw [hcreate] at hid hparent hprofile
  cases id? with
  | some id =>
    -- The children of a created parent are sent
    dsimp only
    rw [hprofile, List.foldl_map]
    obtain ⟨more, hslots, hruns⟩ := hparent.foldl _ (fun c => (.child c.1, c.2)) children
      fun c hc more b _ hb => hb.child (htag c hc more) hid c.2
    refine ⟨⟨.parent tag, parent, fate⟩ :: more, by rw [List.map_cons, hslots]; rfl, ?_⟩
    rwa [List.append_assoc] at hruns
  | none =>
    -- Those of any other are held
    dsimp only
    rw [List.foldl_map]
    obtain ⟨more, hslots, hruns⟩ := hparent.foldl _ (fun c => (.child c.1, c.2)) children
      fun c hc more b _ hb => hb.bereft (htag c hc more) hid c.2
    refine ⟨⟨.parent tag, parent, fate⟩ :: more, by rw [List.map_cons, hslots]; rfl, ?_⟩
    rwa [List.append_assoc] at hruns

/-- Turns of slots that are not of a parent under a tag leave the tag without a parent. -/
theorem parentOf_append_eq_none {tag : Tag} (hturns : Turn.parentOf turns tag = none)
    {more : List Turn} {slots : List (Seat × Parcel)} (hmore : ∀ t ∈ more, t.slot ∈ slots)
    (hslots : ∀ slot ∈ slots, slot.1 ≠ .parent tag) :
    Turn.parentOf (turns ++ more) tag = none := by
  rw [Turn.parentOf_append_of_none hturns]
  rw [Turn.parentOf]
  rw [List.find?_eq_none]
  intro t ht hseat
  exact hslots _ (hmore t ht) (of_decide_eq_true hseat)

/-- Parents and children run through their schedule, as long as no child that is left has met
    its parent. -/
theorem Runs.families (parents children : List (Tag × Parcel)) (h : Runs m b₀ turns b)
    (hfree : ∀ c ∈ children, Turn.parentOf turns c.1 = none) :
    ∃ more : List Turn, more.map Turn.slot = scheduleFamilies parents children ∧
      Runs m b₀ (turns ++ more) (families m parents children b) := by
  induction parents generalizing turns b children with
  | nil =>
    -- Children that no parent has taken stay without one
    refine h.foldl _ (fun c => (.child c.1, c.2)) children fun c hc more b hmore hb => ?_
    refine hb.orphan (parentOf_append_eq_none (hfree c hc) hmore ?_) c.2
    exact List.forall_mem_map.mpr fun _ _ => nofun
  | cons entry parents ih =>
    obtain ⟨tag, parent⟩ := entry
    have hnot : (not ∘ fun c : Tag × Parcel => decide (c.1 = tag)) =
        fun c => decide (¬ c.1 = tag) := by
      funext c
      exact decide_not.symm
    rw [Build.families]
    rw [List.partition_eq_filter_filter, hnot]
    dsimp only
    obtain ⟨more, hslots, hruns⟩ := h.family tag parent (children.filter fun c => c.1 = tag) (by
      intro c hc
      obtain ⟨hmem, htag⟩ := List.mem_filter.mp hc
      have htag := of_decide_eq_true htag
      exact ⟨htag, htag ▸ hfree c hmem⟩)
    -- The family has no parent under the tag of a child that it leaves
    have hothers : ∀ c ∈ children.filter fun c => ¬ c.1 = tag,
        Turn.parentOf (turns ++ more) c.1 = none := by
      intro c hc
      obtain ⟨hmem, hne⟩ := List.mem_filter.mp hc
      have hne : tag ≠ c.1 := Ne.symm (of_decide_eq_true hne)
      refine parentOf_append_eq_none (hfree c hmem) (fun t => List.mem_map_of_mem) ?_
      rw [hslots]
      exact List.forall_mem_cons.mpr ⟨fun hsame => hne (Seat.parent.inj hsame),
        List.forall_mem_map.mpr fun _ _ => nofun⟩
    obtain ⟨rest, hrest, hdone⟩ := ih _ hruns hothers
    refine ⟨more ++ rest, ?_, ?_⟩
    · rw [List.map_append, hslots, hrest]
      rfl
    · rwa [List.append_assoc] at hdone

end Build

/-- A build runs through its schedule. -/
theorem Draft.buildParcels_runs {σ : Type} (m : Manager σ) (d : Draft) (b : Build σ) :
    ∃ turns : List Turn, turns.map Turn.slot = d.schedule ∧
      Build.Runs m b turns (d.buildParcels m b) := by
  have hstart : Build.Runs m b [] b := .nil
  obtain ⟨first, hfirst, halone⟩ := hstart.foldl (fun b p => (b.createTop m p).2)
    (Seat.alone, ·) d.parcels fun p _ more b _ hb => hb.alone p
  obtain ⟨rest, hrest, hruns⟩ := halone.families d.parents d.children (by
    intro c _
    refine Build.parentOf_append_eq_none rfl (fun t => List.mem_map_of_mem) ?_
    rw [hfirst]
    exact List.forall_mem_map.mpr fun _ _ => nofun)
  exact ⟨first ++ rest, by rw [List.map_append, hfirst, hrest]; rfl, by
    rwa [List.nil_append] at hruns⟩

end ProfileMigration
