/-
  ProfileMigration.Proofs.Delivery.Ledger

  A push as a sequence of deliveries, one for each plan that is started:

    Delivery                -- a plan, the exchange that opens its profile, and what came of it
    Delivery.Lawful         -- what may come of a plan, after the deliveries before it
    Push.Runs               -- a push that goes through deliveries
    Push.Runs.run           -- plans in order, until the run is to stop
    Ledger                  -- what a push asks and reports
    push_ledger             -- every push keeps a ledger
    push_unstopped          -- what nobody stops is not cancelled
-/
import ProfileMigration.Delivery.Push
import ProfileMigration.Proofs.Build.Account

namespace ProfileMigration

/-! ## Deliveries -/

/-- A plan that was started, and what came of it: an error, or a report with the turns that it
    is on. -/
structure Delivery where
  shared : Bool
  plan : ProfilePlan
  opening : Exchange
  outcome : Except TransportError (BuildReport × List Turn)

namespace Delivery

/-- The plan and whether its identifiers are shared. -/
def slot (d : Delivery) : Bool × ProfilePlan := (d.shared, d.plan)

/-- The turns of the parcels of the plan. -/
def turns (d : Delivery) : List Turn :=
  match d.outcome with
  | .ok (_, turns) => turns
  | .error _ => []

/-- The report on the profile, if it was created. -/
def report? (d : Delivery) : Option BuildReport := d.outcome.toOption.map Prod.fst

/-- The entry of the profile among those that were not created. -/
def failure? (d : Delivery) : Option ProfileFailure :=
  match d.outcome with
  | .ok _ => none
  | .error e => some ⟨d.plan.name, d.plan.type, e.message⟩

/-- What the build of the plan gives. -/
def result (d : Delivery) : Except MigrationError BuildReport :=
  match d.outcome with
  | .ok (report, _) => .ok report
  | .error e => .error (.transport e)

/-- What was asked for the plan. -/
def exchanges (d : Delivery) : List Exchange := d.opening :: d.turns.flatMap Turn.exchanges

/-- What the delivery adds to the identifiers that later ones know. -/
def remember (d : Delivery) (ids : RemoteIds) : RemoteIds :=
  if d.shared then Turn.known ids d.turns else ids

/-- What is known after deliveries. -/
def known (ids : RemoteIds) (ds : List Delivery) : RemoteIds :=
  ds.foldl (fun ids d => d.remember ids) ids

/-- What may come of a plan. Without an identifier for the profile nothing else is asked, and
    with one the report accounts for the plan. -/
def Lawful (ids : RemoteIds) (d : Delivery) : Prop :=
  d.opening.call = (d.plan.draft ids).openingCall d.plan.header ∧
    match d.outcome with
    | .error _ => d.opening.id? = none
    | .ok (report, turns) => d.opening.id? = some report.profileId ∧
      report.profileName = d.plan.name ∧ report.profileType = d.plan.type ∧
      Account (d.plan.draft ids) report.profilePath turns report

theorem known_snoc (ids : RemoteIds) (ds : List Delivery) (d : Delivery) :
    known ids (ds ++ [d]) = d.remember (known ids ds) := by
  rw [known, known, List.foldl_append]
  rfl

/-- An object is unknown after deliveries if it was before and no shared one created it. -/
theorem get?_known_eq_none_iff {ids : RemoteIds} {ds : List Delivery} {origin : Uuid} :
    (known ids ds).get? origin = none ↔ ids.get? origin = none ∧
      ∀ d ∈ ds, d.shared = true → ∀ t ∈ d.turns, t.parcel.id = some origin →
        t.fate.id? = none := by
  induction ds generalizing ids with
  | nil => exact ⟨fun h => ⟨h, fun _ hd => absurd hd List.not_mem_nil⟩, And.left⟩
  | cons d ds ih =>
    have hknown : known ids (d :: ds) = known (d.remember ids) ds := rfl
    have hone : (d.remember ids).get? origin = none ↔ ids.get? origin = none ∧
        (d.shared = true → ∀ t ∈ d.turns, t.parcel.id = some origin → t.fate.id? = none) := by
      rw [remember]
      cases d.shared with
      | false => simp
      | true => simp [Turn.get?_known_eq_none_iff]
    rw [hknown, ih, hone, List.forall_mem_cons, and_assoc]

end Delivery

/-! ## A push delivery by delivery -/

namespace Push

variable {σ : Type} {m : Manager σ}

/-- A push goes through one delivery. -/
structure Delivered (m : Manager σ) (p : Push σ) (d : Delivery) (p' : Push σ) : Prop where
  lawful : d.Lawful p.ids
  talk : m.Leads p.session d.exchanges p'.session
  ids : p'.ids = d.remember p.ids
  result : p'.result = { p.result with
    reports := p.result.reports ++ d.report?.toList
    failures := p.result.failures ++ d.failure?.toList }

/-- Each plan that is started is one delivery, and a whole build. It never ends the push: a plan
    gives its draft a name, so that the build ends in a report or in a failed call. -/
theorem delivered_build (m : Manager σ) (shared : Bool) (plan : ProfilePlan) (p : Push σ) :
    ∃ (d : Delivery) (p' : Push σ), d.slot = (shared, plan) ∧
      p.profile m shared plan = (.ok (), p') ∧ Delivered m p d p' ∧
      (plan.draft p.ids).build m p.session = (d.result, p'.session) := by
  obtain ⟨opening, hcall, hcases⟩ := (plan.draft p.ids).buildNamed_account m plan.header p.session
  have hheader : (plan.draft p.ids).header = some plan.header := rfl
  rw [profile, Draft.build, hheader]
  dsimp only
  cases hid : opening.id? with
  | none =>
    rw [hid] at hcases
    obtain ⟨e, s, hbuild, htalk⟩ := hcases
    rw [hbuild]
    -- Without a profile there are no turns, and nothing is learnt
    refine ⟨⟨shared, plan, opening, .error e⟩, _, rfl, rfl, ⟨⟨hcall, hid⟩, htalk, ?_, ?_⟩, rfl⟩
    · cases shared with
      | false => rfl
      | true => rfl
    · simp [Delivery.report?, Delivery.failure?, Except.toOption]
  | some id =>
    rw [hid] at hcases
    obtain ⟨report, s, turns, hbuild, htalk, hname, htype, hreport, haccount⟩ := hcases
    rw [hbuild]
    -- What the shared profile teaches is read off its report
    refine ⟨⟨shared, plan, opening, .ok (report, turns)⟩, _, rfl, rfl,
      ⟨⟨hcall, by rw [hid, hreport], hname, htype, haccount⟩, htalk, ?_, ?_⟩, rfl⟩
    · cases shared with
      | false => rfl
      | true => exact (Turn.known_eq_overlay p.ids haccount.created).symm
    · simp [Delivery.report?, Delivery.failure?, Except.toOption]

/-- A push that is to stop leaves all plans out that are left. -/
theorem run_cons_of_stopped {shared : Bool} {plan : ProfilePlan} {p : Push σ}
    {rest : List (Bool × ProfilePlan)} (hstop : m.stopped p.session.state = true) :
    run m ((shared, plan) :: rest) p =
      (.ok (), { p with result := { p.result with cancelled := true } }) := by
  rw [run, if_pos hstop]

/-- Any other goes on after its next plan. -/
theorem run_cons_of_profile {shared : Bool} {plan : ProfilePlan} {p p' : Push σ}
    {rest : List (Bool × ProfilePlan)} (hgo : m.stopped p.session.state = false)
    (hprofile : p.profile m shared plan = (.ok (), p')) :
    run m ((shared, plan) :: rest) p = run m rest p' := by
  rw [run, if_neg (by simp [hgo]), hprofile]

/-- A push goes from `p₀` to another through deliveries. -/
inductive Runs (m : Manager σ) (p₀ : Push σ) : List Delivery → Push σ → Prop
  | nil : Runs m p₀ [] p₀
  | snoc {ds : List Delivery} {p p' : Push σ} {d : Delivery} (h : Runs m p₀ ds p)
    (hdelivered : Delivered m p d p') : Runs m p₀ (ds ++ [d]) p'

namespace Runs

variable {p₀ p : Push σ} {ds : List Delivery}

theorem talk (h : Runs m p₀ ds p) :
    m.Leads p₀.session (ds.flatMap Delivery.exchanges) p.session := by
  induction h with
  | nil => exact .refl m p₀.session
  | snoc _ hdelivered ih =>
    rw [List.flatMap_append, List.flatMap_singleton]
    exact ih.trans hdelivered.talk

theorem ids (h : Runs m p₀ ds p) : p.ids = Delivery.known p₀.ids ds := by
  induction h with
  | nil => rfl
  | snoc _ hdelivered ih => rw [hdelivered.ids, ih, Delivery.known_snoc]

/-- The result lists reports and failures by deliveries. -/
theorem result (h : Runs m p₀ ds p) :
    p.result = { p₀.result with
      reports := p₀.result.reports ++ ds.filterMap Delivery.report?
      failures := p₀.result.failures ++ ds.filterMap Delivery.failure? } := by
  induction h with
  | nil => simp
  | snoc _ hdelivered ih =>
    rw [hdelivered.result, ih, List.filterMap_append, List.filterMap_append]
    simp only [List.append_assoc]
    congr 2

theorem lawful (h : Runs m p₀ ds p) {before after : List Delivery} {d : Delivery}
    (hd : ds = before ++ d :: after) : d.Lawful (Delivery.known p₀.ids before) := by
  induction h generalizing after with
  | nil => simp at hd
  | snoc hruns hdelivered ih =>
    rcases split_of_snoc hd with ⟨rfl, rfl⟩ | ⟨rest, hrest⟩
    · rw [← hruns.ids]
      exact hdelivered.lawful
    · exact ih hrest

/-- Plans are delivered in order, until all are or the run is to stop. -/
theorem run (plans : List (Bool × ProfilePlan)) (h : Runs m p₀ ds p) :
    ∃ more rest p', plans = more.map Delivery.slot ++ rest ∧ Runs m p₀ (ds ++ more) p' ∧
      ((rest = [] ∧ Push.run m plans p = (.ok (), p')) ∨
        (rest ≠ [] ∧ m.stopped p'.session.state = true ∧
          Push.run m plans p =
            (.ok (), { p' with result := { p'.result with cancelled := true } }))) := by
  induction plans generalizing ds p with
  | nil => exact ⟨[], [], p, rfl, by rwa [List.append_nil], .inl ⟨rfl, rfl⟩⟩
  | cons entry plans ih =>
    obtain ⟨shared, plan⟩ := entry
    cases hstop : m.stopped p.session.state with
    | true =>
      -- Nothing more is started
      rw [run_cons_of_stopped hstop]
      exact ⟨[], (shared, plan) :: plans, p, rfl, by rwa [List.append_nil],
        .inr ⟨List.cons_ne_nil _ _, hstop, rfl⟩⟩
    | false =>
      obtain ⟨d, p₁, hslot, hprofile, hdelivered, -⟩ := delivered_build m shared plan p
      rw [run_cons_of_profile hstop hprofile]
      obtain ⟨more, rest, p', hplans, hruns, hend⟩ := ih (h.snoc hdelivered)
      refine ⟨d :: more, rest, p', ?_, ?_, hend⟩
      · rw [hplans, List.map_cons, hslot, List.cons_append]
      · rwa [List.append_assoc] at hruns

end Runs

end Push

/-! ## The ledger of a push -/

/-- What a push asks and reports, by deliveries. -/
structure Ledger {σ : Type} (m : Manager σ) (plans : TransformResult) (s : Session σ)
    (ds : List Delivery) (pushed : PushResult × Session σ) : Prop where
  /-- Plans are started in order, the shared one first, and all of them unless the push is
      cancelled. -/
  started : ∃ rest,
    plans.policyObjects.toList.map (true, ·) ++ plans.profiles.map (false, ·) =
      ds.map Delivery.slot ++ rest ∧
    (pushed.1.cancelled = true ↔ rest ≠ []) ∧ (rest ≠ [] → m.stopped pushed.2.state = true)
  talk : m.Leads s (ds.flatMap Delivery.exchanges) pushed.2
  reports : pushed.1.reports = ds.filterMap Delivery.report?
  failures : pushed.1.failures = ds.filterMap Delivery.failure?
  /-- Each delivery is what its plan and the shared ones before it allow. -/
  lawful : ∀ before d after, ds = before ++ d :: after → d.Lawful (Delivery.known [] before)

/-- Every push keeps a ledger. -/
theorem push_ledger {σ : Type} (m : Manager σ) (plans : TransformResult) (s : Session σ) :
    ∃ ds, Ledger m plans s ds (push m plans s) := by
  have hstart : Push.Runs m ⟨s, [], .empty⟩ [] ⟨s, [], .empty⟩ := .nil
  obtain ⟨ds, rest, p, hplans, hruns, hend⟩ := hstart.run plans.ordered
  rw [List.nil_append] at hruns
  have hresult := hruns.result
  refine ⟨ds, ?_⟩
  rw [push]
  rcases hend with ⟨hrest, hrun⟩ | ⟨hrest, hstop, hrun⟩
  · rw [hrun]
    refine ⟨⟨rest, hplans, ?_, fun h => absurd hrest h⟩, hruns.talk, ?_, ?_,
      fun before d after hd => hruns.lawful hd⟩
    · simp [hresult, hrest, PushResult.empty]
    · simp [hresult, PushResult.empty]
    · simp [hresult, PushResult.empty]
  · rw [hrun]
    refine ⟨⟨rest, hplans, ?_, fun _ => hstop⟩, hruns.talk, ?_, ?_,
      fun before d after hd => hruns.lawful hd⟩
    · simp [hrest]
    · simp [hresult, PushResult.empty]
    · simp [hresult, PushResult.empty]

/-- No plan ends a push, so that it always has a result. -/
theorem deliver_eq {σ : Type} (m : Manager σ) (plans : TransformResult) (s : Session σ) :
    deliver m plans s = (.ok (push m plans s).1, (push m plans s).2) := by
  have hstart : Push.Runs m ⟨s, [], .empty⟩ [] ⟨s, [], .empty⟩ := .nil
  obtain ⟨_, _, _, -, -, ⟨-, hrun⟩ | ⟨-, -, hrun⟩⟩ := hstart.run plans.ordered
  · rw [deliver, push, hrun]
  · rw [deliver, push, hrun]

/-- A push that is not cancelled starts every plan. -/
theorem Ledger.slots_of_uncancelled {σ : Type} {m : Manager σ} {plans : TransformResult}
    {s : Session σ} {ds : List Delivery} {pushed : PushResult × Session σ}
    (h : Ledger m plans s ds pushed) (huncancelled : pushed.1.cancelled = false) :
    ds.map Delivery.slot = plans.ordered := by
  obtain ⟨rest, hplans, hcancelled, -⟩ := h.started
  cases rest with
  | nil => rw [TransformResult.ordered, hplans, List.append_nil]
  | cons _ _ =>
    have hcancel := hcancelled.mpr (List.cons_ne_nil _ _)
    rw [huncancelled] at hcancel
    cases hcancel

/-- A push that nobody stops is not cancelled. -/
theorem push_unstopped {σ : Type} (m : Manager σ) (plans : TransformResult) (s : Session σ) :
    (push m.unstopped plans s).1.cancelled = false := by
  obtain ⟨ds, hledger⟩ := push_ledger m.unstopped plans s
  obtain ⟨rest, -, hcancelled, hstop⟩ := hledger.started
  rw [Bool.eq_false_iff]
  intro hcancel
  cases hstop (hcancelled.mp hcancel)

end ProfileMigration
