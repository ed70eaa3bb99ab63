/-
  ProfileMigration.Proofs.Build.Seats

  What is queued at a seat, and in which order its turns come:

    atSeat                  -- whether a turn is of a seat
    underTag                -- whether a parcel is queued under a tag
    filter_scheduleFamilies -- at every seat families take their turns as they are queued
    Draft.filter_queue      -- what a draft has queued at a seat
    Draft.filter_schedule   -- at every seat the whole draft takes its turns as it is queued
-/
import ProfileMigration.Proofs.Build.Schedule

namespace ProfileMigration

/-! ## Seats and tags -/

/-- The turn of a queued parent. -/
def parentSlot (c : Tag × Parcel) : Seat × Parcel := (.parent c.1, c.2)

/-- The turn of a queued child. -/
def childSlot (c : Tag × Parcel) : Seat × Parcel := (.child c.1, c.2)

/-- Whether a parcel is queued under a tag. -/
def underTag (tag : Tag) (c : Tag × Parcel) : Bool := c.1 = tag

/-- Whether a turn is of a seat. -/
def atSeat (seat : Seat) (slot : Seat × Parcel) : Bool := slot.1 = seat

section Tags

variable {tag tag' : Tag}

theorem underTag_eq_true_iff {c : Tag × Parcel} : underTag tag c = true ↔ c.1 = tag :=
  decide_eq_true_iff

/-- Nothing is queued under two tags. -/
theorem not_underTag_of_ne (hne : tag ≠ tag') {c : Tag × Parcel} (hc : underTag tag c = true) :
    underTag tag' c = false := by
  refine decide_eq_false fun hc' => hne ?_
  rw [← underTag_eq_true_iff.mp hc, hc']

end Tags

/-! ## Parts of lists -/

section Parts

variable {α : Type} {p q : α → Bool} {xs : List α}

theorem filter_filter_of_imp (h : ∀ x, q x = true → p x = true) :
    (xs.filter p).filter q = xs.filter q := by
  rw [List.filter_filter]
  refine List.filter_congr fun x _ => ?_
  cases hq : q x with
  | false => rfl
  | true => rw [h x hq, Bool.true_and]

theorem filter_filter_of_imp_false (h : ∀ x, q x = true → p x = false) :
    (xs.filter p).filter q = [] := by
  rw [List.filter_filter, List.filter_eq_nil_iff]
  intro x _ hx
  obtain ⟨hq, hp⟩ := Bool.and_eq_true_iff.mp hx
  rw [h x hq] at hp
  cases hp

end Parts

/-! ## Turns of a seat -/

/-- The turns of children at a seat are those of the children under its tag. -/
theorem filter_childSlots (seat : Seat) (children : List (Tag × Parcel)) :
    (children.map childSlot).filter (atSeat seat) =
      match seat with
      | .child tag => (children.filter (underTag tag)).map childSlot
      | .alone | .parent _ => [] := by
  rw [List.filter_map]
  cases seat with
  | alone | parent _ =>
    dsimp only
    rw [List.map_eq_nil_iff, List.filter_eq_nil_iff]
    intro c _
    simp [atSeat, childSlot]
  | child tag =>
    refine congrArg (List.map childSlot) (List.filter_congr fun c _ => ?_)
    simp [atSeat, childSlot, underTag]

theorem filter_aloneSlots (seat : Seat) (parcels : List Parcel) :
    (parcels.map (Seat.alone, ·)).filter (atSeat seat) =
      match seat with
      | .alone => parcels.map (Seat.alone, ·)
      | .parent _ | .child _ => [] := by
  rw [List.filter_map]
  cases seat with
  | alone =>
    refine congrArg (List.map _) (List.filter_eq_self.mpr fun p _ => ?_)
    rfl
  | parent _ | child _ =>
    dsimp only
    rw [List.map_eq_nil_iff, List.filter_eq_nil_iff]
    intro p _
    simp [atSeat]

/-- The turns of parents at a seat are those of the parents under its tag. -/
theorem filter_parentSlots (seat : Seat) (parents : List (Tag × Parcel)) :
    (parents.map parentSlot).filter (atSeat seat) =
      match seat with
      | .parent tag => (parents.filter (underTag tag)).map parentSlot
      | .alone | .child _ => [] := by
  rw [List.filter_map]
  cases seat with
  | alone | child _ =>
    dsimp only
    rw [List.map_eq_nil_iff, List.filter_eq_nil_iff]
    intro c _
    simp [atSeat, parentSlot]
  | parent tag =>
    refine congrArg (List.map parentSlot) (List.filter_congr fun c _ => ?_)
    simp [atSeat, parentSlot, underTag]

theorem seat_of_mem_aloneSlots {slot : Seat × Parcel} {parcels : List Parcel}
    (h : slot ∈ parcels.map (Seat.alone, ·)) : slot.1 = .alone := by
  obtain ⟨p, -, rfl⟩ := List.mem_map.mp h
  rfl

theorem countP_aloneSlots (seat : Seat) (parcels : List Parcel) :
    (parcels.map (Seat.alone, ·)).countP (atSeat seat) =
      match seat with
      | .alone => parcels.length
      | .parent _ | .child _ => 0 := by
  rw [List.countP_eq_length_filter, filter_aloneSlots]
  cases seat with
  | alone => exact List.length_map _
  | parent _ | child _ => rfl

theorem countP_childSlots (seat : Seat) (children : List (Tag × Parcel)) :
    (children.map childSlot).countP (atSeat seat) =
      match seat with
      | .child tag => children.countP (underTag tag)
      | .alone | .parent _ => 0 := by
  rw [List.countP_eq_length_filter, filter_childSlots]
  cases seat with
  | alone | parent _ => rfl
  | child tag =>
    rw [List.length_map]
    exact List.countP_eq_length_filter.symm

/-! ## Schedules -/

/-- The turns of a parent, of the children that it takes, and of the other families. -/
theorem scheduleFamilies_cons (tag : Tag) (parent : Parcel)
    (parents children : List (Tag × Parcel)) :
    scheduleFamilies ((tag, parent) :: parents) children =
      (.parent tag, parent) :: ((children.filter (underTag tag)).map childSlot ++
        scheduleFamilies parents (children.filter fun c => !underTag tag c)) := by
  have hnot : (fun c : Tag × Parcel => !underTag tag c) = fun c => decide (¬ c.1 = tag) := by
    funext c
    exact decide_not.symm
  rw [scheduleFamilies, hnot]
  rfl

/-- At every seat families have their turns as they are queued. -/
theorem filter_scheduleFamilies (seat : Seat) (parents children : List (Tag × Parcel)) :
    (scheduleFamilies parents children).filter (atSeat seat) =
      (parents.map parentSlot ++ children.map childSlot).filter (atSeat seat) := by
  induction parents generalizing children with
  | nil => rfl
  | cons entry parents ih =>
    obtain ⟨tag, parent⟩ := entry
    rw [scheduleFamilies_cons, List.map_cons, List.cons_append, List.filter_cons,
      List.filter_cons, List.filter_append, ih, List.filter_append, List.filter_append,
      filter_childSlots, filter_childSlots, filter_childSlots]
    cases seat with
    | alone | parent _ => rfl
    | child tag' =>
      rw [filter_parentSlots, List.nil_append, List.nil_append]
      dsimp only
      -- The first parent takes all children under the tag, or none
      by_cases htag : tag' = tag
      · subst htag
        rw [filter_filter_of_imp fun _ hc => hc,
          filter_filter_of_imp_false (fun c hc => by rw [hc]; rfl), List.map_nil, List.append_nil]
        rfl
      · rw [filter_filter_of_imp_false fun c => not_underTag_of_ne htag,
          filter_filter_of_imp fun c hc => by rw [not_underTag_of_ne htag hc]; rfl]
        rfl

namespace Draft

theorem queue_eq (d : Draft) : d.queue = d.parcels.map (Seat.alone, ·) ++
    (d.parents.map parentSlot ++ d.children.map childSlot) := List.append_assoc _ _ _

/-- What is queued at a seat. -/
theorem filter_queue (d : Draft) (seat : Seat) :
    d.queue.filter (atSeat seat) =
      match seat with
      | .alone => d.parcels.map (Seat.alone, ·)
      | .parent tag => (d.parents.filter (underTag tag)).map parentSlot
      | .child tag => (d.children.filter (underTag tag)).map childSlot := by
  rw [queue_eq, List.filter_append, List.filter_append, filter_aloneSlots, filter_parentSlots,
    filter_childSlots]
  cases seat with
  | alone => exact List.append_nil _
  | parent _ => exact List.append_nil _
  | child _ => rfl

/-- At every seat parcels have their turns as they are queued. -/
theorem filter_schedule (d : Draft) (seat : Seat) :
    d.schedule.filter (atSeat seat) = d.queue.filter (atSeat seat) := by
  rw [queue_eq, schedule, List.filter_append, List.filter_append, filter_scheduleFamilies]

end Draft

end ProfileMigration
