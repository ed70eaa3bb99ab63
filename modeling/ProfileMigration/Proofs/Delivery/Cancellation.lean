/-
  ProfileMigration.Proofs.Delivery.Cancellation

  A push that is asked to stop does so between two profiles:

    Draft.build_unstopped       -- a build does not ask whether the run is to stop
    Builds                      -- whole builds in order, none begun once the run is to stop
    Delivery.Recorded           -- a plan is among the reports or the failures, not both
    Push.Through                -- a push that has gone through deliveries
    Push.run_unstopped          -- what nobody stops goes through all plans
    Push.run_stops              -- what somebody stops has gone the same way, as far as it went
    push_stops_between_profiles -- so it is in every push, and each build is that of a whole plan

  Both runs are followed together, plan by plan, up to the one that is not started any more.
-/
import ProfileMigration.Proofs.Delivery.Completeness

namespace ProfileMigration

variable {σ : Type} {m : Manager σ}

/-! ## What nobody stops -/

/-- Only the start of a profile depends on whether the run is to stop. -/
theorem Build.families_unstopped (m : Manager σ) : families m.unstopped = families m := by
  funext parents
  induction parents with
  | nil => rfl
  | cons entry rest ih =>
    funext children b
    rw [families, families, ih]
    rfl

theorem Draft.buildNamed_unstopped (m : Manager σ) : buildNamed m.unstopped = buildNamed m := by
  funext d header s
  simp only [buildNamed, buildParcels, Build.families_unstopped]
  rfl

theorem Draft.build_unstopped (m : Manager σ) : build m.unstopped = build m := by
  funext d s
  simp only [build, buildNamed_unstopped]

theorem Push.profile_unstopped (m : Manager σ) : profile m.unstopped = profile m := by
  funext shared plan p
  simp only [profile, Draft.build_unstopped]

theorem Manager.Answers.unstopped {s s' : σ} {xs : List Exchange} (h : m.Answers s xs s') :
    m.unstopped.Answers s xs s' := by
  induction h with
  | nil => exact .nil
  | cons hx _ ih => exact .cons hx ih

theorem Manager.Leads.unstopped {s s' : Session σ} {xs : List Exchange} (h : m.Leads s xs s') :
    m.unstopped.Leads s xs s' :=
  ⟨h.exchanges, h.answers.unstopped⟩

/-- The calls of a session that goes on from another one. -/
theorem Manager.Leads.calls {s s' : Session σ} {xs : List Exchange} (h : m.Leads s xs s') :
    s'.calls = s.calls ++ xs.map Exchange.call := by
  rw [Session.calls, h.exchanges, List.map_append, Session.calls]

/-! ## Deliveries in order -/

namespace Delivery

/-- The calls that were made for the plan. -/
def calls (d : Delivery) : List Call := d.exchanges.map Exchange.call

/-- The plan is in exactly one of the lists of a push: it has a report on a created profile, or
    it is among the failures. -/
def Recorded (d : Delivery) : Prop :=
  (∃ report, d.report? = some report ∧ report.profileName = d.plan.name ∧
    report.profileType = d.plan.type ∧ d.failure? = none) ∨
  ∃ failure, d.failure? = some failure ∧ failure.name = d.plan.name ∧
    failure.type = d.plan.type ∧ d.report? = none

theorem Lawful.recorded {d : Delivery} {ids : RemoteIds} (h : d.Lawful ids) : d.Recorded := by
  obtain ⟨shared, plan, opening, outcome⟩ := d
  cases outcome with
  | error e => exact .inr ⟨_, rfl, rfl, rfl, rfl⟩
  | ok made =>
    obtain ⟨-, -, hname, htype, -⟩ := h
    exact .inl ⟨made.1, rfl, hname, htype, rfl⟩

end Delivery

/-- Whole builds one after the other, each from the session that the one before has left. None
    is begun once the run is to stop, and none ends in anything but a report or a failed call. -/
inductive Builds (m : Manager σ) : RemoteIds → Session σ → List Delivery → Session σ → Prop
  | nil {ids : RemoteIds} {s : Session σ} : Builds m ids s [] s
  | cons {ids : RemoteIds} {s s' s'' : Session σ} {d : Delivery} {rest : List Delivery}
    (hgo : m.stopped s.state = false) (hlawful : d.Lawful ids)
    (hbuild : (d.plan.draft ids).build m s = (d.result, s')) (htalk : m.Leads s d.exchanges s')
    (hrest : Builds m (d.remember ids) s' rest s'') : Builds m ids s (d :: rest) s''

namespace Builds

variable {ids : RemoteIds} {s s' : Session σ} {ds : List Delivery}

theorem talk (h : Builds m ids s ds s') : m.Leads s (ds.flatMap Delivery.exchanges) s' := by
  induction h with
  | nil => exact .refl m _
  | cons _ _ _ htalk _ ih =>
    rw [List.flatMap_cons]
    exact htalk.trans ih

theorem calls (h : Builds m ids s ds s') : s'.calls = s.calls ++ ds.flatMap Delivery.calls := by
  rw [h.talk.calls, List.map_flatMap]
  rfl

theorem recorded (h : Builds m ids s ds s') : ∀ d ∈ ds, d.Recorded := by
  induction h with
  | nil => exact List.forall_mem_nil _
  | cons _ hlawful _ _ _ ih => exact List.forall_mem_cons.mpr ⟨hlawful.recorded, ih⟩

theorem whole (h : Builds m ids s ds s') : ∀ d ∈ ds, d.Whole := by
  induction h with
  | nil => exact List.forall_mem_nil _
  | cons _ hlawful _ _ _ ih => exact List.forall_mem_cons.mpr ⟨hlawful.whole, ih⟩

end Builds

/-! ## Two runs side by side -/

namespace Push

variable {p p' : Push σ} {ds : List Delivery}

/-- A push has gone through deliveries. -/
structure Through (m : Manager σ) (p : Push σ) (ds : List Delivery) (p' : Push σ) : Prop where
  builds : Builds m p.ids p.session ds p'.session
  result : p'.result = { p.result with
    reports := p.result.reports ++ ds.filterMap Delivery.report?
    failures := p.result.failures ++ ds.filterMap Delivery.failure? }

theorem through_nil (m : Manager σ) (p : Push σ) : Through m p [] p := ⟨.nil, by simp⟩

/-- One more delivery, in front of the others. -/
theorem Through.cons {d : Delivery} {p₁ : Push σ} (hgo : m.stopped p.session.state = false)
    (hdelivered : Delivered m p d p₁)
    (hbuild : (d.plan.draft p.ids).build m p.session = (d.result, p₁.session))
    (h : Through m p₁ ds p') : Through m p (d :: ds) p' where
  builds := .cons hgo hdelivered.lawful hbuild hdelivered.talk (hdelivered.ids ▸ h.builds)
  result := by
    rw [h.result, hdelivered.result, List.filterMap_cons, List.filterMap_cons]
    cases d.report? <;> cases d.failure? <;> simp

/-- A push that nobody stops goes through all plans. -/
theorem run_unstopped (m : Manager σ) (plans : List (Bool × ProfilePlan)) (p : Push σ) :
    ∃ ds p', ds.map Delivery.slot = plans ∧ Through m.unstopped p ds p' ∧
      run m.unstopped plans p = (.ok (), p') := by
  induction plans generalizing p with
  | nil => exact ⟨[], p, rfl, through_nil _ p, rfl⟩
  | cons entry plans ih =>
    obtain ⟨shared, plan⟩ := entry
    obtain ⟨d, p₁, hslot, hprofile, hdelivered, hbuild⟩ := delivered_build m.unstopped shared plan p
    obtain ⟨ds, p', hplans, hthrough, hrun⟩ := ih p₁
    obtain rfl : plan = d.plan := (congrArg Prod.snd hslot).symm
    refine ⟨d :: ds, p', ?_, .cons rfl hdelivered hbuild hthrough, ?_⟩
    · rw [List.map_cons, hslot, hplans]
    · rw [run_cons_of_profile rfl hprofile, hrun]

/-- A push that somebody may stop goes through plans in the same way as one that nobody stops,
    and where it stops it leaves the others out. -/
theorem run_stops (m : Manager σ) (plans : List (Bool × ProfilePlan)) (p : Push σ) :
    ∃ done later p' whole, (done ++ later).map Delivery.slot = plans ∧ Through m p done p' ∧
      Through m.unstopped p (done ++ later) whole ∧ run m.unstopped plans p = (.ok (), whole) ∧
      ((later = [] ∧ run m plans p = (.ok (), p')) ∨
        (later ≠ [] ∧ m.stopped p'.session.state = true ∧
          run m plans p =
            (.ok (), { p' with result := { p'.result with cancelled := true } }))) := by
  induction plans generalizing p with
  | nil => exact ⟨[], [], p, p, rfl, through_nil m p, through_nil _ p, rfl, .inl ⟨rfl, rfl⟩⟩
  | cons entry plans ih =>
    obtain ⟨shared, plan⟩ := entry
    cases hstop : m.stopped p.session.state with
    | true =>
      -- Nothing more is started here, while the other run goes on alone
      obtain ⟨ds, whole, hplans, hthrough, hrun⟩ := run_unstopped m ((shared, plan) :: plans) p
      refine ⟨[], ds, p, whole, hplans, through_nil m p, hthrough, hrun, .inr ⟨?_, hstop, ?_⟩⟩
      · rintro rfl
        cases hplans
      · exact run_cons_of_stopped hstop
    | false =>
      -- Both runs build the same profile, and then go on from the same state
      obtain ⟨d, p₁, hslot, hprofile, hdelivered, hbuild⟩ := delivered_build m shared plan p
      obtain ⟨done, later, p', whole, hplans, hdone, hall, hwhole, hend⟩ := ih p₁
      obtain rfl : plan = d.plan := (congrArg Prod.snd hslot).symm
      have hone : Delivered m.unstopped p d p₁ :=
        { hdelivered with talk := hdelivered.talk.unstopped }
      have hsame : p.profile m.unstopped shared d.plan = (.ok (), p₁) := by
        rw [profile_unstopped, hprofile]
      refine ⟨d :: done, later, p', whole, ?_, .cons hstop hdelivered hbuild hdone, ?_, ?_, ?_⟩
      · rw [List.cons_append, List.map_cons, hslot, hplans]
      · exact .cons rfl hone (by rw [Draft.build_unstopped, hbuild]) hall
      · rw [run_cons_of_profile rfl hsame, hwhole]
      · rw [run_cons_of_profile hstop hprofile]
        exact hend

end Push

/-! ## Every push -/

/-- Every push ends in a result, and it is the whole builds of its first plans, in order, the
    shared one first: the builds that the same push makes where nobody stops it. A build opens the
    profile of its plan and then every member of the plan has its turn. The plans that were
    started are each in exactly one of the lists; those that were not are asked for nothing. The
    push is cancelled exactly when there are such plans, and then someone has asked the run to
    stop. -/
theorem push_stops_between_profiles {σ : Type} (m : Manager σ) (plans : TransformResult)
    (s : Session σ) :
    let pushed := push m plans s
    let whole := push m.unstopped plans s
    deliver m plans s = (.ok pushed.1, pushed.2) ∧
    ∃ done later, (done ++ later).map Delivery.slot =
        plans.policyObjects.toList.map (true, ·) ++ plans.profiles.map (false, ·) ∧
      Builds m [] s done pushed.2 ∧ Builds m.unstopped [] s (done ++ later) whole.2 ∧
      (∀ d ∈ done ++ later, d.Whole) ∧
      pushed.2.calls = s.calls ++ done.flatMap Delivery.calls ∧
      whole.2.calls = pushed.2.calls ++ later.flatMap Delivery.calls ∧
      (∀ d ∈ done ++ later, d.Recorded) ∧
      pushed.1.reports = done.filterMap Delivery.report? ∧
      pushed.1.failures = done.filterMap Delivery.failure? ∧
      whole.1.reports = pushed.1.reports ++ later.filterMap Delivery.report? ∧
      whole.1.failures = pushed.1.failures ++ later.filterMap Delivery.failure? ∧
      whole.1.cancelled = false ∧ (pushed.1.cancelled = true ↔ later ≠ []) ∧
      (later ≠ [] → m.stopped pushed.2.state = true) := by
  intro pushed whole
  obtain ⟨done, later, p, all, hplans, hdone, hall, hrun, hend⟩ :=
    Push.run_stops m plans.ordered ⟨s, [], .empty⟩
  have hwhole : whole = (all.result, all.session) := by
    show push m.unstopped plans s = _
    rw [push, hrun]
  have hresult := hdone.result
  have hallresult := hall.result
  -- Stopping or not, the session is the one after the deliveries
  have hpushed : pushed = ({ p.result with cancelled := !later.isEmpty }, p.session) ∧
      (later ≠ [] → m.stopped p.session.state = true) := by
    show push m plans s = _ ∧ _
    rcases hend with ⟨rfl, hrun⟩ | ⟨hlater, hstop, hrun⟩
    · refine ⟨?_, fun h => absurd rfl h⟩
      rw [push, hrun]
      simp [hresult, PushResult.empty]
    · refine ⟨?_, fun _ => hstop⟩
      rw [push, hrun]
      simp [hlater]
  obtain ⟨hpushed, hstop⟩ := hpushed
  have hcalls : p.session.calls = s.calls ++ done.flatMap Delivery.calls := hdone.builds.calls
  have hallcalls : all.session.calls = s.calls ++ (done ++ later).flatMap Delivery.calls :=
    hall.builds.calls
  refine ⟨deliver_eq m plans s, done, later, hplans, ?_⟩
  rw [hpushed, hwhole]
  refine ⟨hdone.builds, hall.builds, hall.builds.whole, hcalls, ?_, hall.builds.recorded, ?_, ?_,
    ?_, ?_, ?_, ?_, hstop⟩
  · rw [hallcalls, hcalls, List.flatMap_append, List.append_assoc]
  · simp [hresult, PushResult.empty]
  · simp [hresult, PushResult.empty]
  · simp [hallresult, hresult, PushResult.empty]
  · simp [hallresult, hresult, PushResult.empty]
  · simp [hallresult, PushResult.empty]
  · simp

end ProfileMigration
