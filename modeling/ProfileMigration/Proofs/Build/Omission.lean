/-
  ProfileMigration.Proofs.Build.Omission

  Drafts from which a queued parcel is left out:

    Draft.without           -- the draft without one parcel, and without the children that only
                               that parcel can have
    Draft.wards             -- those children
    Draft.schedule_without  -- the other turns stay as they are
-/
import ProfileMigration.Proofs.Build.Seats
import ProfileMigration.Proofs.Sequence.Erase

namespace ProfileMigration

/-! ## Leaving out a parcel -/

/-- The children that the parent number `n` under a tag takes: all of them or none. -/
def wardsOf (children : List (Tag × Parcel)) (tag : Tag) : Nat → List (Tag × Parcel)
  | 0 => children.filter (underTag tag)
  | _ + 1 => []

/-- The children that it leaves. -/
def leftBy (children : List (Tag × Parcel)) (tag : Tag) : Nat → List (Tag × Parcel)
  | 0 => children.filter fun c => !underTag tag c
  | _ + 1 => children

namespace Draft

/-- The children that go with the parcel number `n` of a seat, from zero. -/
def wards (d : Draft) : Seat → Nat → List (Tag × Parcel)
  | .parent tag, n => wardsOf d.children tag n
  | .alone, _ | .child _, _ => []

/-- The draft without the parcel number `n` of a seat, from zero, and without its wards. -/
def without (d : Draft) (seat : Seat) (n : Nat) : Draft :=
  match seat with
  | .alone => { d with parcels := d.parcels.eraseIdx n }
  | .parent tag =>
    { d with
      parents := eraseNth (underTag tag) n d.parents
      children := leftBy d.children tag n }
  | .child tag => { d with children := eraseNth (underTag tag) n d.children }

variable {d : Draft} {seat : Seat} {n : Nat}

theorem type_without : (d.without seat n).type = d.type := by
  cases seat with
  | alone | parent _ | child _ => rfl

theorem header_without : (d.without seat n).header = d.header := by
  cases seat with
  | alone | parent _ | child _ => rfl

theorem remoteIds_without : (d.without seat n).remoteIds = d.remoteIds := by
  cases seat with
  | alone | parent _ | child _ => rfl

/-- Without the first parent under a tag there is no child under it. -/
theorem child_not_mem_without_parent (tag : Tag) (p : Parcel) :
    (Seat.child tag, p) ∉ (d.without (.parent tag) 0).schedule := by
  intro hmem
  have hseat : atSeat (.child tag) (.child tag, p) = true := decide_eq_true rfl
  have hturn := List.mem_filter.mpr ⟨hmem, hseat⟩
  have hnone : (leftBy d.children tag 0).filter (underTag tag) = [] :=
    filter_filter_of_imp_false fun c hc => by rw [hc]; rfl
  rw [filter_schedule, filter_queue, without] at hturn
  dsimp only at hturn
  rw [hnone] at hturn
  exact List.not_mem_nil hturn

end Draft

section Tags

variable {tag tag' : Tag} (children : List (Tag × Parcel)) (n : Nat)

theorem wardsOf_filter_self :
    wardsOf (children.filter fun c => !underTag tag c) tag n = [] := by
  cases n with
  | zero => exact filter_filter_of_imp_false fun c hc => by rw [hc]; rfl
  | succ n => rfl

theorem leftBy_filter_self :
    leftBy (children.filter fun c => !underTag tag c) tag n =
      children.filter fun c => !underTag tag c := by
  cases n with
  | zero => exact filter_filter_of_imp fun _ h => h
  | succ n => rfl

theorem wardsOf_filter_of_ne (hne : tag ≠ tag') :
    wardsOf (children.filter fun c => !underTag tag' c) tag n = wardsOf children tag n := by
  cases n with
  | zero => exact filter_filter_of_imp fun c hc => by rw [not_underTag_of_ne hne hc]; rfl
  | succ n => rfl

theorem filter_leftBy_of_ne (hne : tag ≠ tag') :
    (leftBy children tag n).filter (underTag tag') = children.filter (underTag tag') := by
  cases n with
  | zero => exact filter_filter_of_imp fun c hc => by rw [not_underTag_of_ne hne.symm hc]; rfl
  | succ n => rfl

theorem filter_not_leftBy :
    (leftBy children tag n).filter (fun c => !underTag tag' c) =
      leftBy (children.filter fun c => !underTag tag' c) tag n := by
  cases n with
  | zero =>
    rw [leftBy, leftBy, List.filter_filter, List.filter_filter]
    exact List.filter_congr fun c _ => Bool.and_comm _ _
  | succ n => rfl

end Tags

/-! ## Schedules -/

theorem parent_not_mem_childSlots {children : List (Tag × Parcel)} {tag : Tag} {p : Parcel} :
    (Seat.parent tag, p) ∉ children.map childSlot := by
  rw [List.mem_map]
  rintro ⟨c, -, heq⟩
  cases heq

theorem mem_of_mem_childSlots {children : List (Tag × Parcel)} {tag : Tag} {p : Parcel}
    (h : (Seat.child tag, p) ∈ children.map childSlot) : (tag, p) ∈ children := by
  obtain ⟨c, hc, heq⟩ := List.mem_map.mp h
  cases heq
  exact hc

/-- Only a queued child has the turn of a child. -/
theorem mem_children_of_mem_scheduleFamilies {parents children : List (Tag × Parcel)} {tag : Tag}
    {p : Parcel} (h : (Seat.child tag, p) ∈ scheduleFamilies parents children) :
    (tag, p) ∈ children := by
  rw [(scheduleFamilies_perm parents children).mem_iff, List.mem_append] at h
  rcases h with h | h
  · obtain ⟨_, -, heq⟩ := List.mem_map.mp h
    cases heq
  · exact mem_of_mem_childSlots h

/-- A parent that is left out leaves the other turns as they are, those of its wards apart. -/
theorem scheduleFamilies_without_parent {parents children : List (Tag × Parcel)}
    {before rest : List (Seat × Parcel)} {tag : Tag} {p : Parcel}
    (h : scheduleFamilies parents children = before ++ (.parent tag, p) :: rest) :
    let n := before.countP (atSeat (.parent tag))
    ∃ after, rest = (wardsOf children tag n).map childSlot ++ after ∧
      scheduleFamilies (eraseNth (underTag tag) n parents) (leftBy children tag n) =
        before ++ after := by
  induction parents generalizing children before with
  | nil =>
    have hmem : (Seat.parent tag, p) ∈ scheduleFamilies [] children := by
      rw [h]
      simp
    exact absurd hmem parent_not_mem_childSlots
  | cons entry parents ih =>
    obtain ⟨tag', parent⟩ := entry
    rw [scheduleFamilies_cons] at h
    cases before with
    | nil =>
      -- This parent is the one that is left out, the first under its tag
      obtain ⟨hslot, hrest⟩ := List.cons.inj h
      cases hslot
      have hself : underTag tag (tag, p) = true := underTag_eq_true_iff.mpr rfl
      refine ⟨_, hrest.symm, ?_⟩
      rw [List.countP_nil, eraseNth_zero_cons_of_pos hself]
      rfl
    | cons slot before =>
      obtain ⟨rfl, htail⟩ := List.cons.inj h
      obtain ⟨between, rfl, hfamilies⟩ := split_of_not_mem parent_not_mem_childSlots htail
      obtain ⟨after, hrest, hschedule⟩ := ih hfamilies
      by_cases htag : tag' = tag
      · -- A parent under the same tag has taken the children before
        subst htag
        have hself : underTag tag' (tag', parent) = true := underTag_eq_true_iff.mpr rfl
        have hseat : atSeat (.parent tag') (.parent tag', parent) = true := decide_eq_true rfl
        rw [wardsOf_filter_self] at hrest
        rw [leftBy_filter_self] at hschedule
        rw [List.countP_cons_of_pos hseat, List.countP_append, countP_childSlots,
          Nat.zero_add]
        refine ⟨after, hrest, ?_⟩
        rw [eraseNth_succ_cons_of_pos hself, leftBy, scheduleFamilies_cons, hschedule,
          List.cons_append, List.append_assoc]
      · have hne : tag ≠ tag' := Ne.symm htag
        have hself : underTag tag (tag', parent) = false := decide_eq_false htag
        have hseat : ¬ atSeat (.parent tag) (.parent tag', parent) = true := by
          simpa [atSeat] using htag
        rw [wardsOf_filter_of_ne _ _ hne] at hrest
        rw [← filter_not_leftBy] at hschedule
        rw [List.countP_cons_of_neg hseat, List.countP_append, countP_childSlots,
          Nat.zero_add]
        refine ⟨after, hrest, ?_⟩
        rw [eraseNth_cons_of_neg hself, scheduleFamilies_cons, filter_leftBy_of_ne _ _ hne,
          hschedule, List.cons_append, List.append_assoc]

/-- Among children alone, those under a tag have their turns as they are queued. -/
theorem childSlots_without {children : List (Tag × Parcel)} {before rest : List (Seat × Parcel)}
    {tag : Tag} {p : Parcel} (h : children.map childSlot = before ++ (.child tag, p) :: rest) :
    (eraseNth (underTag tag) (before.countP (atSeat (.child tag))) children).map childSlot =
      before ++ rest := by
  obtain ⟨xs, ys, rfl, rfl, hys⟩ := List.map_eq_append_iff.mp h
  obtain ⟨c, ys, rfl, hc, rfl⟩ := List.map_eq_cons_iff.mp hys
  have htag : underTag tag c = true :=
    underTag_eq_true_iff.mpr (Seat.child.inj (congrArg Prod.fst hc))
  rw [countP_childSlots]
  dsimp only
  rw [eraseNth_append_cons htag, List.map_append]

/-- A child that is left out leaves the other turns as they are. -/
theorem scheduleFamilies_without_child {parents children : List (Tag × Parcel)}
    {before rest : List (Seat × Parcel)} {tag : Tag} {p : Parcel}
    (h : scheduleFamilies parents children = before ++ (.child tag, p) :: rest) :
    scheduleFamilies parents
        (eraseNth (underTag tag) (before.countP (atSeat (.child tag))) children) =
      before ++ rest := by
  induction parents generalizing children before with
  | nil => exact childSlots_without h
  | cons entry parents ih =>
    obtain ⟨tag', parent⟩ := entry
    rw [scheduleFamilies_cons] at h
    cases before with
    | nil => cases (List.cons.inj h).1
    | cons slot before =>
      obtain ⟨rfl, htail⟩ := List.cons.inj h
      have hseat : ¬ atSeat (.child tag) (.parent tag', parent) = true := by simp [atSeat]
      rw [List.countP_cons_of_neg hseat, scheduleFamilies_cons]
      by_cases htag : tag = tag'
      · -- The parent takes the child
        subst htag
        have hnot : (Seat.child tag, p) ∉
            scheduleFamilies parents (children.filter fun c => !underTag tag c) := by
          intro hmem
          have hleft := (List.mem_filter.mp (mem_children_of_mem_scheduleFamilies hmem)).2
          have hself : underTag tag (tag, p) = true := underTag_eq_true_iff.mpr rfl
          rw [hself] at hleft
          cases hleft
        obtain ⟨between, hmine, rfl⟩ := split_of_not_mem_right hnot htail
        have hothers : ∀ c, underTag tag c = true → (!underTag tag c) = false := by
          intro c hc
          rw [hc]
          rfl
        rw [filter_eraseNth_of_imp fun _ hc => hc, childSlots_without hmine,
          filter_eraseNth_of_imp_false hothers, List.cons_append, List.append_assoc]
      · -- The parent leaves it
        have hnot : (Seat.child tag, p) ∉ (children.filter (underTag tag')).map childSlot := by
          intro hmem
          have htaken := (List.mem_filter.mp (mem_of_mem_childSlots hmem)).2
          exact htag (underTag_eq_true_iff.mp htaken)
        obtain ⟨between, rfl, hfamilies⟩ := split_of_not_mem hnot htail
        have hnone : ((children.filter (underTag tag')).map childSlot).countP
            (atSeat (.child tag)) = 0 := by
          rw [countP_childSlots]
          dsimp only
          rw [List.countP_eq_length_filter, List.length_eq_zero_iff]
          exact filter_filter_of_imp_false fun c => not_underTag_of_ne htag
        have hothers : ∀ c, underTag tag c = true → (!underTag tag' c) = true := by
          intro c hc
          rw [not_underTag_of_ne htag hc]
          rfl
        rw [List.countP_append, hnone, Nat.zero_add,
          filter_eraseNth_of_imp_false fun c => not_underTag_of_ne htag,
          filter_eraseNth_of_imp hothers, ih hfamilies, List.cons_append, List.append_assoc]

namespace Draft

variable {d : Draft}

/-- A parcel that is left out leaves the other turns as they are, those of its wards apart. -/
theorem schedule_without {before rest : List (Seat × Parcel)} {seat : Seat} {p : Parcel}
    (h : d.schedule = before ++ (seat, p) :: rest) :
    let n := before.countP (atSeat seat)
    ∃ after, rest = (d.wards seat n).map childSlot ++ after ∧
      (d.without seat n).schedule = before ++ after := by
  rw [schedule] at h
  cases seat with
  | alone =>
    -- The parcel stands before all families
    have hfamilies : (Seat.alone, p) ∉ scheduleFamilies d.parents d.children := by
      intro hmem
      exact seat_ne_alone_of_mem_scheduleFamilies hmem rfl
    obtain ⟨between, hparcels, rfl⟩ := split_of_not_mem_right hfamilies h
    obtain ⟨xs, ys, hd, rfl, hys⟩ := List.map_eq_append_iff.mp hparcels
    obtain ⟨q, ys, rfl, -, rfl⟩ := List.map_eq_cons_iff.mp hys
    refine ⟨_, rfl, ?_⟩
    rw [countP_aloneSlots, without, schedule]
    dsimp only
    rw [hd, List.eraseIdx_append_of_length_le (Nat.le_refl _), Nat.sub_self,
      List.eraseIdx_cons_zero, List.map_append, List.append_assoc]
    rfl
  | parent tag =>
    have hnot : (Seat.parent tag, p) ∉ d.parcels.map (Seat.alone, ·) := by
      intro hmem
      cases seat_of_mem_aloneSlots hmem
    obtain ⟨between, rfl, hfamilies⟩ := split_of_not_mem hnot h
    obtain ⟨after, hrest, hschedule⟩ := scheduleFamilies_without_parent hfamilies
    rw [List.countP_append, countP_aloneSlots, Nat.zero_add]
    refine ⟨after, hrest, ?_⟩
    rw [without, schedule]
    dsimp only
    rw [hschedule, List.append_assoc]
  | child tag =>
    have hnot : (Seat.child tag, p) ∉ d.parcels.map (Seat.alone, ·) := by
      intro hmem
      cases seat_of_mem_aloneSlots hmem
    obtain ⟨between, rfl, hfamilies⟩ := split_of_not_mem hnot h
    have hschedule := scheduleFamilies_without_child hfamilies
    rw [List.countP_append, countP_aloneSlots, Nat.zero_add]
    refine ⟨rest, rfl, ?_⟩
    rw [without, schedule]
    dsimp only
    rw [hschedule, List.append_assoc]

end Draft

end ProfileMigration
