/-
  ProfileMigration.Proofs.Delivery.Families

  Under which parent the children of a plan are created:

    ProfilePlan.bearers         -- the parents of a plan that bear a tag
    Turn.Under                  -- the turn of a child that goes to the parent of a turn
    Turn.Lawful.under           -- a child goes to the first parent under its tag
    Family                      -- a parent and all children that go to it
    Account.family              -- every tag of a plan has one
    push_families               -- in every push
    push_sameVpn                -- a parent planned twice has the children of both at the first

  A parent with a generated identifier has that for its tag, so that parents of one template
  share a tag.
-/
import ProfileMigration.Proofs.Build.Seats
import ProfileMigration.Proofs.Delivery.Ledger

namespace ProfileMigration

/-! ## Tags of a plan -/

namespace ProfilePlan

variable {plan : ProfilePlan} {ids : RemoteIds}

/-- The parents that bear a tag. -/
def bearers (plan : ProfilePlan) (tag : Tag) : List ParentPlan :=
  (plan.tagged.filter fun entry => entry.1 = tag).map Prod.snd

/-- At the seat of a parent the draft queues the parents that bear the tag. -/
theorem filter_queue_parent (plan : ProfilePlan) (ids : RemoteIds) (tag : Tag) :
    ((plan.draft ids).queue.filter (atSeat (.parent tag))).map Prod.snd =
      (plan.bearers tag).map ParentPlan.parcel := by
  rw [Draft.filter_queue, draft, bearers]
  dsimp only
  rw [List.filter_map, List.map_map, List.map_map, List.map_map]
  rfl

/-- At the seat of a child it queues the children of them all. -/
theorem filter_queue_child (plan : ProfilePlan) (ids : RemoteIds) (tag : Tag) :
    ((plan.draft ids).queue.filter (atSeat (.child tag))).map Prod.snd =
      (plan.bearers tag).flatMap ParentPlan.children := by
  rw [Draft.filter_queue, draft, bearers]
  dsimp only
  rw [List.map_map]
  induction plan.tagged with
  | nil => rfl
  | cons entry rest ih =>
    obtain ⟨tag', parent⟩ := entry
    rw [List.flatMap_cons, List.filter_append, List.map_append, ih, List.filter_map]
    by_cases htag : tag' = tag
    · -- All children of this parent are under the tag
      have hall : parent.children.filter (underTag tag ∘ fun c => (tag', c)) = parent.children :=
        List.filter_eq_self.mpr fun _ _ => decide_eq_true htag
      have hborne : ((tag', parent) :: rest).filter (fun entry => entry.1 = tag) =
          (tag', parent) :: rest.filter fun entry => entry.1 = tag :=
        List.filter_cons_of_pos (decide_eq_true htag)
      rw [hall, hborne, List.map_cons, List.flatMap_cons, List.map_map]
      exact congrArg (· ++ _) (List.map_id _)
    · have hnone : parent.children.filter (underTag tag ∘ fun c => (tag', c)) = [] :=
        List.filter_eq_nil_iff.mpr fun _ _ h => htag (of_decide_eq_true h)
      have hother : ((tag', parent) :: rest).filter (fun entry => entry.1 = tag) =
          rest.filter fun entry => entry.1 = tag :=
        List.filter_cons_of_neg (by simpa using htag)
      rw [hnone, hother]
      rfl

end ProfilePlan

/-! ## Children and their parents -/

namespace Turn

/-- The turn of a child that goes to the parent of another turn: it is held if that was not
    created, and otherwise created under it, or created in the profile and then bound to it. -/
def Under (ids : RemoteIds) (base : String) (t q : Turn) : Prop :=
  match q.fate.id? with
  | none => t.fate = .held ("parent '" ++ q.parcel.name ++ "' was not created")
  | some id =>
    let path := Build.pathBelow (parentPath base q.parcel id) t.parcel.type
    match t.parcel.type.childMode with
    | .nested => Sent ids path t.parcel t.fate
    | .associate => ∃ fate, Sent ids (Build.pathBelow base t.parcel.type) t.parcel fate ∧
      match fate with
      | .created sent own => ∃ binding, t.fate = .bound sent own binding ∧
        binding.call = .create path (.obj [("parcelId", .str own.text)])
      | fate => t.fate = fate

variable {ids : RemoteIds} {base : String} {earlier : List Turn} {q t : Turn} {tag : Tag}

/-- A child goes to the first parent under its tag. -/
theorem Lawful.under (h : t.Lawful ids base earlier) (hseat : t.seat = .child tag)
    (hq : parentOf earlier tag = some q) : t.Under (known ids earlier) base q := by
  cases h with
  | alone _ | parent _ => cases hseat
  | orphan hparent =>
    rw [Seat.child.inj hseat, hq] at hparent
    cases hparent
  | bereft hparent hid =>
    rw [Seat.child.inj hseat, hq] at hparent
    rw [Under, Option.some.inj hparent, hid]
  | nested hparent hid hmode h =>
    rw [Seat.child.inj hseat, hq] at hparent
    simp only [Under, Option.some.inj hparent, hid, hmode]
    exact h
  | unbound hparent hid hmode h hfate =>
    rw [Seat.child.inj hseat, hq] at hparent
    simp only [Under, Option.some.inj hparent, hid, hmode]
    refine ⟨_, h, ?_⟩
    -- A parcel that was not created is not offered to the parent
    cases h with
    | unbound _ | failed _ | nameless _ _ => rfl
    | created _ _ => cases hfate
  | bound hparent hid hmode h hbinding =>
    rw [Seat.child.inj hseat, hq] at hparent
    simp only [Under, Option.some.inj hparent, hid, hmode]
    exact ⟨_, h, _, rfl, hbinding⟩

end Turn

/-! ## Families -/

/-- A tag of a plan in the turns of its parcels: the first parent that bears it, and all children
    under it. -/
structure Family (ids : RemoteIds) (base : String) (plan : ProfilePlan) (turns : List Turn)
    (tag : Tag) (q : Turn) : Prop where
  first : Turn.parentOf turns tag = some q
  /-- The first parent has the identifier that the answer to its own creation gave. -/
  answer : q.fate.id? = q.fate.creation?.bind Exchange.id?
  /-- Every parent that bears the tag has its turn, and so have their children. -/
  parents : ((turns.filter fun t => t.seat = .parent tag).map Turn.parcel).Perm
    ((plan.bearers tag).map ParentPlan.parcel)
  children : ((turns.filter fun t => t.seat = .child tag).map Turn.parcel).Perm
    ((plan.bearers tag).flatMap ParentPlan.children)
  /-- The children all come after the first parent, and go to it. -/
  under : ∀ earlier t later, turns = earlier ++ t :: later → t.seat = .child tag →
    q ∈ earlier ∧ t.Under (Turn.known ids earlier) base q

/-- A parent that shares its tag with no other has its own children. -/
theorem Family.own {ids : RemoteIds} {base : String} {plan : ProfilePlan} {turns : List Turn}
    {tag : Tag} {q : Turn} {parent : ParentPlan} (h : Family ids base plan turns tag q)
    (hsingle : plan.bearers tag = [parent]) : q.parcel = parent.parcel ∧
      ((turns.filter fun t => t.seat = .child tag).map Turn.parcel).Perm parent.children := by
  obtain ⟨hq, hseat⟩ := Turn.of_parentOf_eq_some h.first
  have hparents := h.parents
  have hchildren := h.children
  rw [hsingle] at hparents hchildren
  constructor
  · have hmem : q.parcel ∈ [parent.parcel] := by
      refine hparents.mem_iff.mp (List.mem_map_of_mem (List.mem_filter.mpr ⟨hq, ?_⟩))
      exact decide_eq_true hseat
    exact List.mem_singleton.mp hmem
  · rw [List.flatMap_singleton] at hchildren
    exact hchildren

namespace Account

variable {plan : ProfilePlan} {ids : RemoteIds} {base : String} {turns : List Turn}
  {report : BuildReport}

/-- The turns at a seat are of the parcels that are queued there. -/
theorem parcels_perm {d : Draft} (h : Account d base turns report) (seat : Seat) :
    ((turns.filter fun t => t.seat = seat).map Turn.parcel).Perm
      ((d.queue.filter (atSeat seat)).map Prod.snd) := by
  have hqueued := (h.queued.filter (atSeat seat)).map Prod.snd
  rw [List.filter_map, List.map_map] at hqueued
  exact hqueued

/-- Every tag of a plan has a family. -/
theorem family (h : Account (plan.draft ids) base turns report) {tag : Tag} {parent : ParentPlan}
    (hparent : parent ∈ plan.bearers tag) : ∃ q, Family ids base plan turns tag q := by
  have hparents := h.parcels_perm (.parent tag)
  rw [plan.filter_queue_parent] at hparents
  have hchildren := h.parcels_perm (.child tag)
  rw [plan.filter_queue_child] at hchildren
  -- The parent has its turn, so there is a first turn of one under the tag
  obtain ⟨u, hu, -⟩ := List.mem_map.mp (hparents.mem_iff.mpr (List.mem_map_of_mem hparent))
  obtain ⟨hu, hseat⟩ := List.mem_filter.mp hu
  have hsome : (Turn.parentOf turns tag).isSome := by
    rw [Turn.parentOf, List.find?_isSome]
    exact ⟨u, hu, hseat⟩
  obtain ⟨q, hq⟩ := Option.isSome_iff_exists.mp hsome
  refine ⟨q, hq, ?_, hparents, hchildren, ?_⟩
  · obtain ⟨earlier, later, hsplit⟩ := List.append_of_mem (Turn.of_parentOf_eq_some hq).1
    exact (h.lawful earlier q later hsplit).id?_eq
  · intro earlier t later hsplit hchild
    have hqueued : (tag, u.parcel) ∈ (plan.draft ids).parents := by
      refine Draft.mem_parents_of_mem_queue (h.queued.mem_iff.mp ?_)
      rw [← of_decide_eq_true hseat]
      exact List.mem_map_of_mem hu
    obtain ⟨q', hq'⟩ := Option.isSome_iff_exists.mp
      (h.after_parent earlier t later tag u.parcel hsplit hchild hqueued)
    -- The first one so far is the first one of all
    have hsame := Turn.parentOf_append_of_some hq' (t :: later)
    rw [← hsplit, hq] at hsame
    obtain rfl := Option.some.inj hsame
    exact ⟨(Turn.of_parentOf_eq_some hq').1, (h.lawful earlier t later hsplit).under hchild hq'⟩

end Account

/-! ## Every push -/

/-- In every push, the children under a tag go to the first parent that bears it: they are
    created under the identifier that the answer to its creation gave, or bound to it, and they
    are not sent if it was not created. These are the children of all parents that bear the tag,
    so that a parent has its own children if it shares its tag with no other. -/
theorem push_families {σ : Type} (m : Manager σ) (plans : TransformResult) (s : Session σ) :
    ∃ ds, Ledger m plans s ds (push m plans s) ∧
      ∀ before d after, ds = before ++ d :: after →
        ∀ report turns, d.outcome = .ok (report, turns) →
          ∀ tag, ∀ parent ∈ d.plan.bearers tag, ∃ q,
            Family (Delivery.known [] before) report.profilePath d.plan turns tag q ∧
            (d.plan.bearers tag = [parent] → q.parcel = parent.parcel ∧
              ((turns.filter fun t => t.seat = .child tag).map Turn.parcel).Perm
                parent.children) := by
  obtain ⟨ds, hledger⟩ := push_ledger m plans s
  refine ⟨ds, hledger, ?_⟩
  intro before d after hsplit report turns houtcome tag parent hparent
  have hlawful := (hledger.lawful before d after hsplit).2
  rw [houtcome] at hlawful
  obtain ⟨-, -, -, haccount⟩ := hlawful
  obtain ⟨q, hfamily⟩ := haccount.family hparent
  exact ⟨q, hfamily, hfamily.own⟩

/-! ## One template, planned twice -/

/-- A VPN with one interface; the identifier is that of its template. -/
def vpnWith (interface : String) : ParentPlan where
  parcel := ⟨some ⟨0⟩, "vpn", none, .lanVpn, []⟩
  children := [⟨none, interface, none, .ethernet, []⟩]

/-- A device with one VPN template in two places, each with an interface of its own. -/
def sameVpn : TransformResult where
  policyObjects := none
  profiles := [⟨"site", none, .service, [], [vpnWith "a", vpnWith "b"]⟩]
  failures := []

/-- A manager that numbers the objects that it creates. -/
def numberingManager : Manager Nat where
  answer _ n := (.ok (.obj [("id", .str (Uuid.mk n).text)]), n + 1)
  stopped _ := false

/-- The second VPN, number 5, is created, but its interface has gone to the first one, number 2,
    as the two share a tag. -/
theorem push_sameVpn :
    let pushed := push numberingManager sameVpn (.start 1)
    let base := ProfileType.profilePath .service ⟨1⟩
    let vpns := Build.pathBelow base .lanVpn
    let interfacesOfFirst := Build.pathBelow (vpns ++ "/" ++ (Uuid.mk 2).text) .ethernet
    (pushed.1.reports.map fun r => r.created.map fun c => (c.name, c.id)) =
        [[("vpn", ⟨2⟩), ("a", ⟨3⟩), ("b", ⟨4⟩), ("vpn", ⟨5⟩)]] ∧
      pushed.2.calls.map Call.path = [ProfileType.collectionPath .service, vpns,
        interfacesOfFirst, interfacesOfFirst, vpns] := by
  decide +kernel

end ProfileMigration
