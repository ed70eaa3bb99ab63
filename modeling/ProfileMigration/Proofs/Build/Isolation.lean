/-
  ProfileMigration.Proofs.Build.Isolation

  A parcel that is not created leaves no trace in a build but its own:

    Manager.Leads.ask_eq        -- a conversation of one exchange is one call
    Turn.eq_replay_of_append    -- a replay can be stopped and goes on from there
    Turn.rank                   -- the number of a parcel among those of its seat
    Turn.known_of_forall        -- turns that create nothing teach nothing
    Build.Runs.held_wards       -- the wards of a parcel that was not created are held
    Build.Runs.replay_after     -- later turns are as if neither had been there
    Draft.Isolated              -- a build beside the one without a parcel and its wards
    Draft.build_isolates        -- every parcel that is not created is isolated in this way
    build_twinDraft             -- children under a tag are wards of the first parent only

  It takes a manager whose answers depend on the call alone. Any other could answer differently
  for no other reason than that something was asked before.
-/
import ProfileMigration.Proofs.Build.Binding
import ProfileMigration.Proofs.Build.Omission
import ProfileMigration.Proofs.Build.Replay

namespace ProfileMigration

variable {σ : Type} {m : Manager σ}

/-! ## Opening calls -/

/-- A conversation of one exchange is the call of that exchange. -/
theorem Manager.Leads.ask_eq {s s' : Session σ} {x : Exchange} (h : m.Leads s [x] s') :
    m.ask x.call s = (x.answer, s') := by
  obtain ⟨call, answer⟩ := x
  obtain ⟨state, exchanges⟩ := s'
  obtain ⟨hexchanges, hanswers⟩ := h
  dsimp only at hexchanges hanswers
  cases hanswers with
  | cons hanswer hrest =>
    obtain rfl : (m.answer call s.state).1 = answer := hanswer
    cases hrest with
    | nil =>
      rw [hexchanges]
      rfl

/-- Two conversations of one exchange that ask the same in one session are the same. -/
theorem Manager.Leads.opening_eq {s o o' : Session σ} {x x' : Exchange} (h : m.Leads s [x] o)
    (h' : m.Leads s [x'] o') (hcall : x.call = x'.call) : x = x' ∧ o = o' := by
  have hask := h.ask_eq
  rw [hcall, h'.ask_eq] at hask
  obtain ⟨hanswer, hopened⟩ := Prod.mk.inj hask
  obtain ⟨call, answer⟩ := x
  obtain ⟨call', answer'⟩ := x'
  obtain rfl : call = call' := hcall
  obtain rfl : answer' = answer := hanswer
  exact ⟨rfl, hopened.symm⟩

/-! ## Turns -/

namespace Turn

variable {f : Call → Except TransportError Json} {ids : RemoteIds} {base : String}

/-- A replay can be stopped anywhere, and goes on from there. -/
theorem eq_replay_of_append {earlier xs ys : List Turn}
    (h : xs ++ ys = replay f ids base earlier ((xs ++ ys).map slot)) :
    xs = replay f ids base earlier (xs.map slot) ∧
      ys = replay f ids base (earlier ++ xs) (ys.map slot) := by
  rw [List.map_append, replay_append] at h
  have hslots : ((replay f ids base earlier (xs.map slot)).map slot).length =
      (xs.map slot).length := by
    rw [map_slot_replay]
  rw [List.length_map, List.length_map] at hslots
  obtain ⟨hxs, hys⟩ := List.append_inj h hslots.symm
  rw [← hxs] at hys
  exact ⟨hxs, hys⟩

/-- The number of a queued parcel among those of its seat, from zero. -/
def rank (t : Turn) (before : List Turn) : Nat := (before.map slot).countP (atSeat t.seat)

theorem remember_of_id?_eq_none {t : Turn} (h : t.fate.id? = none) (ids : RemoteIds) :
    t.remember ids = ids := by
  rw [remember, h]

/-- Turns that create nothing add nothing to what is known. -/
theorem known_of_forall {turns : List Turn} (h : ∀ t ∈ turns, t.fate.id? = none)
    (ids : RemoteIds) : known ids turns = ids := by
  induction turns with
  | nil => rfl
  | cons t turns ih =>
    obtain ⟨ht, hturns⟩ := List.forall_mem_cons.mp h
    have hknown : known ids (t :: turns) = known (t.remember ids) turns := rfl
    rw [hknown, remember_of_id?_eq_none ht, ih hturns]

/-- A parcel that was not created was not offered to a parent. -/
theorem exchanges_of_not_created {t : Turn} (h : t.fate.id? = none) :
    t.exchanges = t.fate.creation?.toList := by
  obtain ⟨seat, p, fate⟩ := t
  cases fate with
  | held _ => rfl
  | refused _ _ => rfl
  | created _ _ | bound _ _ _ => cases h

/-- A child of a parent that was not created is held. -/
theorem Lawful.held_child {earlier : List Turn} {t q : Turn} {tag : Tag}
    (h : t.Lawful ids base earlier) (hseat : t.seat = .child tag)
    (hparent : parentOf earlier tag = some q) (hid : q.fate.id? = none) :
    ∃ reason, t.fate = .held reason := by
  refine h.held_of_not_due fun hdue => ?_
  obtain ⟨q', hq', hcreated⟩ := hdue tag hseat
  rw [hparent] at hq'
  rw [← Option.some.inj hq', hid] at hcreated
  cases hcreated

/-- Children are nobody's parents. -/
theorem parentOf_childSlots {held : List Turn} {children : List (Tag × Parcel)}
    (h : held.map slot = children.map childSlot) (tag : Tag) : parentOf held tag = none := by
  rw [parentOf, List.find?_eq_none]
  intro w hw
  have hslot : w.slot ∈ children.map childSlot := by
    rw [← h]
    exact List.mem_map_of_mem hw
  obtain ⟨c, -, hc⟩ := List.mem_map.mp hslot
  have hseat : w.seat = .child c.1 := (congrArg Prod.fst hc).symm
  simp [hseat]

/-- A turn that is not that of a parent under a tag hides none. -/
theorem parentOf_cons_of_ne {t : Turn} {tag : Tag} (h : t.seat ≠ .parent tag)
    (turns : List Turn) : parentOf (t :: turns) tag = parentOf turns tag := by
  rw [parentOf, List.find?_cons_of_neg (by simpa using h)]
  rfl

/-- The first parent under a tag is the one that comes before any other. -/
theorem rank_eq_zero_iff {t : Turn} {tag : Tag} (h : t.seat = .parent tag) (before : List Turn) :
    t.rank before = 0 ↔ parentOf before tag = none := by
  rw [rank, h, List.countP_eq_zero, parentOf, List.find?_eq_none, List.forall_mem_map]
  exact Iff.rfl

end Turn

/-! ## A run without a parcel -/

namespace Build.Runs

variable {b₀ b : Build σ} {before held after : List Turn} {t : Turn} {d : Draft}

/-- The wards of a parcel that was not created are held in turn. -/
theorem held_wards (h : Runs m b₀ (before ++ t :: (held ++ after)) b) (hid : t.fate.id? = none)
    (hheld : held.map Turn.slot =
      (d.wards t.seat (t.rank before)).map childSlot) :
    ∀ w ∈ held, ∃ reason, w.fate = .held reason := by
  intro w hw
  have hslot : w.slot ∈ held.map Turn.slot := List.mem_map_of_mem hw
  rw [hheld] at hslot
  obtain ⟨c, hc, hward⟩ := List.mem_map.mp hslot
  -- Only the first parent under a tag has wards
  cases hseat : t.seat with
  | alone | child _ =>
    rw [hseat] at hc
    exact absurd hc List.not_mem_nil
  | parent tag =>
    rw [hseat] at hc
    cases hn : t.rank before with
    | succ _ =>
      rw [hn] at hc
      exact absurd hc List.not_mem_nil
    | zero =>
      rw [hn] at hc
      have htag : c.1 = tag := underTag_eq_true_iff.mp (List.mem_filter.mp hc).2
      have hwseat : w.seat = .child tag := by
        rw [← htag]
        exact (congrArg Prod.fst hward).symm
      obtain ⟨first, rest, rfl⟩ := List.append_of_mem hw
      have hsplit : before ++ t :: ((first ++ w :: rest) ++ after) =
          (before ++ t :: first) ++ w :: (rest ++ after) := by simp
      have hnone := (Turn.rank_eq_zero_iff hseat before).mp hn
      have hparent : Turn.parentOf (before ++ t :: first) tag = some t := by
        rw [Turn.parentOf_append_of_none hnone, Turn.parentOf]
        exact List.find?_cons_of_pos (decide_eq_true hseat)
      exact (h.lawful hsplit).held_child hwseat hparent hid

/-- Turns go on after a parcel that was not created and its wards as if they had not been. -/
theorem replay_after {f : Call → Except TransportError Json} (hm : m.AnswersBy f)
    (h : Runs m b₀ (before ++ t :: (held ++ after)) b) (hid : t.fate.id? = none)
    (hheld : held.map Turn.slot =
      (d.wards t.seat (t.rank before)).map childSlot)
    (hschedule : (d.without t.seat (t.rank before)).schedule =
      before.map Turn.slot ++ after.map Turn.slot) :
    before ++ after = Turn.replay f b₀.ids b₀.report.profilePath []
      (before.map Turn.slot ++ after.map Turn.slot) := by
  have hreplay := h.eq_replay hm
  obtain ⟨hbefore, hrest⟩ := Turn.eq_replay_of_append hreplay
  have hsplit : t :: (held ++ after) = (t :: held) ++ after := rfl
  rw [hsplit] at hrest
  obtain ⟨-, hafter⟩ := Turn.eq_replay_of_append hrest
  rw [List.nil_append] at hafter
  rw [Turn.replay_append, ← hbefore, List.nil_append]
  refine congrArg (before ++ ·) (hafter.trans (Turn.replay_congr ?_ ?_))
  · -- Nothing has become known between
    rw [Turn.known_append]
    refine Turn.known_of_forall (List.forall_mem_cons.mpr ⟨hid, fun w hw => ?_⟩) _
    obtain ⟨reason, hreason⟩ := h.held_wards hid hheld w hw
    rw [hreason]
    rfl
  · -- A later child has another parent than the one that was not created
    intro slot hslot tag htag
    rw [Turn.parentOf_append]
    cases hparent : Turn.parentOf before tag with
    | some _ => rfl
    | none =>
      rw [Option.none_or]
      have hne : t.seat ≠ .parent tag := by
        intro hseat
        rw [hseat, (Turn.rank_eq_zero_iff hseat before).mpr hparent] at hschedule
        have hmem : slot ∈ (d.without (.parent tag) 0).schedule := by
          rw [hschedule]
          exact List.mem_append_right _ hslot
        rw [show slot = (.child tag, slot.2) from Prod.ext htag rfl] at hmem
        exact d.child_not_mem_without_parent tag slot.2 hmem
      rw [Turn.parentOf_cons_of_ne hne]
      exact Turn.parentOf_childSlots hheld tag

end Build.Runs

/-! ## Two builds -/

namespace Draft

/-- Where no profile is created, the parcels of the draft do not matter. -/
theorem build_congr_of_error {d d' : Draft} {s : Session σ} {e : MigrationError}
    (htype : d'.type = d.type) (hheader : d'.header = d.header)
    (h : (build m d s).1 = .error e) : build m d' s = build m d s := by
  rw [build] at h
  rw [build, build, hheader]
  cases hname : d.header with
  | none => rfl
  | some header =>
    rw [hname] at h
    dsimp only at h ⊢
    rw [buildNamed] at h
    rw [buildNamed, buildNamed, htype]
    rcases hcreate : createProfile m d.type header s with ⟨answer, s'⟩
    rw [hcreate] at h
    cases answer with
    | error _ => rfl
    | ok _ => cases h

theorem withHeader_eq {d : Draft} {header : ProfileHeader} (h : d.header = some header) :
    { d with header := some header } = d := by
  rw [← h]

/-- A build and the one without a certain parcel and its wards, which goes by the turns before
    and after them. -/
structure Isolated (m : Manager σ) (d : Draft) (s : Session σ) (opening : Exchange)
    (report : BuildReport) (before : List Turn) (t : Turn) (held after : List Turn) : Prop where
  /-- The wards have their turns right after the parcel, and nothing is asked for them. -/
  wards : held.map Turn.slot = (d.wards t.seat (t.rank before)).map childSlot
  silent : ∀ w ∈ held, w.exchanges = [] ∧ w.createdItem? = none
  /-- For the parcel itself nothing is asked but its creation. -/
  own : t.exchanges = t.fate.creation?.toList
  /-- Without it the report has the same created parcels, and of the failed ones the others. -/
  report : (build m (d.without t.seat (t.rank before)) s).1 =
    .ok { report with failed := (before ++ after).flatMap Turn.failedItems }
  /-- The other calls are made as before, and get the same answers. -/
  calls : m.Leads s (opening :: (before ++ after).flatMap Turn.exchanges)
    (build m (d.without t.seat (t.rank before)) s).2

/-- What is created does not change by leaving out turns that create nothing. -/
theorem created_of_silent {before held after : List Turn} {t : Turn} (ht : t.createdItem? = none)
    (hheld : ∀ w ∈ held, w.createdItem? = none) :
    (before ++ t :: (held ++ after)).filterMap Turn.createdItem? =
      (before ++ after).filterMap Turn.createdItem? := by
  have hnone : held.filterMap Turn.createdItem? = [] := List.filterMap_eq_nil_iff.mpr hheld
  rw [List.filterMap_append, List.filterMap_cons_none ht, List.filterMap_append, hnone,
    List.nil_append, List.filterMap_append]

/-- A run of a whole build, in which a parcel is not created, beside the build without it. -/
theorem isolated_of_runs {f : Call → Except TransportError Json} (hm : m.AnswersBy f) {d : Draft}
    {header : ProfileHeader} (hheader : d.header = some header) {s opened : Session σ}
    {opening : Exchange} (hcall : opening.call = d.openingCall header)
    (hopen : m.Leads s [opening] opened) {id : Uuid} (hid : opening.id? = some id)
    {before rest : List Turn} {t : Turn} {b : Build σ}
    (hschedule : (before ++ t :: rest).map Turn.slot = d.schedule)
    (hruns : Build.Runs m ⟨opened, d.remoteIds, .start header.name d.type id⟩
      (before ++ t :: rest) b) (hnot : t.createdItem? = none) :
    ∃ held after, rest = held ++ after ∧
      Isolated m d s opening b.report before t held after := by
  have hnone := Turn.createdItem?_eq_none_iff.mp hnot
  rw [List.map_append, List.map_cons] at hschedule
  obtain ⟨slots, hrest, hwithout⟩ := schedule_without hschedule.symm
  obtain ⟨held, after, rfl, hheld, rfl⟩ := List.map_eq_append_iff.mp hrest
  -- The other build opens in the same way
  obtain ⟨opening', opened', hcall', hopen', hcases'⟩ :=
    (d.without t.seat (t.rank before)).build_runs m header s
  have hsame : opening'.call = opening.call := by
    rw [hcall', hcall, openingCall, openingCall, type_without]
  obtain ⟨rfl, rfl⟩ := hopen'.opening_eq hopen hsame
  rw [hid, withHeader_eq (header_without.trans hheader)] at hcases'
  obtain ⟨turns, b', hschedule', hruns', hbuild'⟩ := hcases'
  rw [type_without, remoteIds_without] at hruns'
  -- It goes by the turns before and after
  obtain rfl : turns = before ++ after := by
    rw [hruns'.eq_replay hm, hschedule', hruns.replay_after hm hnone hheld hwithout]
    exact congrArg _ hwithout
  have hsilent : ∀ w ∈ held, w.exchanges = [] ∧ w.createdItem? = none := by
    intro w hw
    obtain ⟨reason, hreason⟩ := hruns.held_wards hnone hheld w hw
    obtain ⟨hasked, hcreated, -⟩ := Turn.of_held hreason
    exact ⟨hasked, hcreated⟩
  refine ⟨held, after, rfl, hheld, hsilent, Turn.exchanges_of_not_created hnone, ?_, ?_⟩
  · rw [hbuild', hruns'.report, hruns.report,
      created_of_silent hnot fun w hw => (hsilent w hw).2]
    rfl
  · rw [hbuild']
    exact hopen.trans hruns'.talk

/-- A parcel that is not created leaves no trace but its own: with a manager whose answers
    depend on the call alone, the build of the draft without it, and without the children that
    only it could have taken, makes the same calls except the creation of the parcel, and has
    the same report except the entries of the parcel and those children. -/
theorem build_isolates {f : Call → Except TransportError Json} (hm : m.AnswersBy f) (d : Draft)
    (s : Session σ) :
    let full := build m d s
    match full.1 with
    | .error _ => ∀ seat n, build m (d.without seat n) s = full
    | .ok report => ∃ opening turns,
      m.Leads s (opening :: turns.flatMap Turn.exchanges) full.2 ∧
      Account d report.profilePath turns report ∧
      (∀ seat, (turns.map Turn.slot).filter (atSeat seat) = d.queue.filter (atSeat seat)) ∧
      ∀ before t rest, turns = before ++ t :: rest → t.createdItem? = none →
        ∃ held after, rest = held ++ after ∧
          Isolated m d s opening report before t held after := by
  dsimp only
  cases hfull : (build m d s).1 with
  | error e => exact fun seat n => build_congr_of_error type_without header_without hfull
  | ok report =>
    cases hheader : d.header with
    | none =>
      rw [build, hheader] at hfull
      cases hfull
    | some header =>
      obtain ⟨opening, opened, hcall, hopen, hcases⟩ := d.build_runs m header s
      rw [withHeader_eq hheader] at hcases
      cases hid : opening.id? with
      | none =>
        rw [hid] at hcases
        obtain ⟨e, hbuild⟩ := hcases
        rw [hbuild] at hfull
        cases hfull
      | some id =>
        rw [hid] at hcases
        obtain ⟨turns, b, hschedule, hruns, hbuild⟩ := hcases
        rw [hbuild] at hfull
        obtain rfl := Except.ok.inj hfull
        refine ⟨opening, turns, ?_, account_of_runs hschedule hruns, ?_, ?_⟩
        · rw [hbuild]
          exact hopen.trans hruns.talk
        · intro seat
          rw [hschedule, d.filter_schedule]
        · intro before t rest hsplit hnot
          subst hsplit
          exact isolated_of_runs hm hheader hcall hopen hid hschedule hruns hnot

end Draft

/-! ## Two parents under one tag -/

/-- A parcel with nothing in it. -/
def bareParcel (name : String) (type : ParcelType) : Parcel := ⟨none, name, none, type, []⟩

/-- Answers that refuse the objects of one name. -/
def refuseNamed (name : String) (call : Call) : Except TransportError Json :=
  if call.body.bind (·.get? "name") = some (.str name) then
    .error (.unreachable call.method.text call.path "refused")
  else
    .ok (.obj [("id", .str (Uuid.mk 1).text)])

/-- Two parents under one tag, and a child under it. -/
def twinDraft : Draft where
  type := .service
  header := some ⟨"p", none⟩
  remoteIds := []
  parcels := []
  parents := [(.place 0, bareParcel "first" .lanVpn), (.place 0, bareParcel "second" .lanVpn)]
  children := [(.place 0, bareParcel "c" .ethernet)]

/-- A manager that refuses the second of them. -/
def refusingManager : Manager Unit where
  answer call state := (refuseNamed "second" call, state)
  stopped _ := false

/-- The child belongs to the first parent. Were it left out together with the second one, which
    is not created, then its own call and its entry among the created parcels would be missing. -/
theorem build_twinDraft :
    let full := Draft.build refusingManager twinDraft (.start ())
    let other := Draft.build refusingManager
      { twinDraft with parents := twinDraft.parents.take 1, children := [] } (.start ())
    refusingManager.AnswersBy (refuseNamed "second") ∧
      (full.1.toOption.map fun r => (r.created.map (·.name), r.failed.map (·.name))) =
        some (["first", "c"], ["second"]) ∧
      (other.1.toOption.map fun r => (r.created.map (·.name), r.failed.map (·.name))) =
        some (["first"], []) ∧
      full.2.calls.length = 4 ∧ other.2.calls.length = 2 := by
  refine ⟨fun _ _ => rfl, ?_⟩
  decide +kernel

/-- Without the second parent alone the build is as it was otherwise. -/
theorem twinDraft_isolated :
    ∃ report opening before t held after,
      (Draft.build refusingManager twinDraft (.start ())).1 = .ok report ∧
      t.parcel.name = "second" ∧
      Draft.Isolated refusingManager twinDraft (.start ()) opening report before t held after := by
  have hisolates := Draft.build_isolates (m := refusingManager) (f := refuseNamed "second")
    (fun _ _ => rfl) twinDraft (.start ())
  have hcreated : ((Draft.build refusingManager twinDraft (.start ())).1.toOption.map fun r =>
    r.created.map (·.name)) = some ["first", "c"] := by decide +kernel
  dsimp only at hisolates
  cases hfull : (Draft.build refusingManager twinDraft (.start ())).1 with
  | error _ =>
    rw [hfull] at hcreated
    cases hcreated
  | ok report =>
    rw [hfull] at hcreated hisolates
    obtain ⟨opening, turns, -, haccount, -, hall⟩ := hisolates
    have hslot : (Seat.parent (.place 0), bareParcel "second" .lanVpn) ∈ twinDraft.queue := by
      decide +kernel
    obtain ⟨t, ht, hslot⟩ := List.mem_map.mp (haccount.queued.mem_iff.mpr hslot)
    have hparcel : t.parcel = bareParcel "second" .lanVpn := congrArg Prod.snd hslot
    have hname : t.parcel.name = "second" := by rw [hparcel]; rfl
    -- Nothing of that name was created
    have hnot : t.createdItem? = none := by
      refine Option.eq_none_iff_forall_ne_some.mpr fun c hc => ?_
      have hmem : c.name ∈ report.created.map (·.name) := by
        rw [haccount.created]
        exact List.mem_map_of_mem (List.mem_filterMap.mpr ⟨t, ht, hc⟩)
      obtain ⟨id, -, rfl⟩ := Option.map_eq_some_iff.mp hc
      rw [show report.created.map (·.name) = ["first", "c"] from Option.some.inj hcreated,
        show CreatedItem.name ⟨t.parcel.name, _, _, _⟩ = _ from hname] at hmem
      exact absurd hmem (by decide)
    obtain ⟨before, rest, hsplit⟩ := List.append_of_mem ht
    obtain ⟨held, after, -, hisolated⟩ := hall before t rest hsplit hnot
    exact ⟨report, opening, before, t, held, after, rfl, hname, hisolated⟩

end ProfileMigration
