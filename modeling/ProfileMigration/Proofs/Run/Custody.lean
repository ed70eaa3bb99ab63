/-
  ProfileMigration.Proofs.Run.Custody

  What becomes of the profiles that a run creates, over any sequence of stages:

    Inquiry.run_reads           -- collecting only reads
    push_opens                  -- every profile that a push opens is in its reports
    Runner.stages               -- stages one after the other
    Runner.Holds                -- the last push lists a profile
    Runner.Custody              -- what a stage does with the profiles at hand
    Runner.stage_custody        -- every stage does that
    Runner.stages_custody       -- what a run does with them
    Runner.stages_pushed_twice  -- the profile of a push that was replaced is lost

  A run keeps the result of its last push only, and so a rollback takes back only that one.
-/
import Mathlib.Data.List.Induction
import ProfileMigration.Proofs.Collection.Questions
import ProfileMigration.Proofs.Run.Reversal
import ProfileMigration.Run.Rehearsal

namespace ProfileMigration

variable {σ : Type} {m : Manager σ}

/-! ## Stages and their calls -/

/-- Collecting only reads. -/
theorem Inquiry.run_reads (m : Manager σ) (inquiry : Inquiry) (s : Session σ) :
    ∃ xs, m.Leads s xs (inquiry.run m s).2 ∧ ∀ x ∈ xs, x.call.method = .get := by
  obtain ⟨xs, rest, htalk, hasks, -, -⟩ := inquiry.run_asks m s
  exact ⟨xs, htalk, hasks.reads⟩

/-- Every profile that a push opens is in its reports. -/
theorem push_opens (m : Manager σ) (plans : TransformResult) (s : Session σ) :
    ∃ xs, m.Leads s xs (push m plans s).2 ∧
      ∀ x ∈ xs, ∀ type id, x.Opens type id → ∃ report ∈ (push m plans s).1.reports,
        report.profileType = type ∧ report.profileId = id := by
  obtain ⟨xs, htalk, hopenings⟩ := push_openings m plans s
  have hreported : ∀ x ∈ xs.filter Exchange.isOpening,
      ∃ report ∈ (push m plans s).1.reports, report.OpenedBy x := by
    generalize xs.filter Exchange.isOpening = openings at hopenings
    generalize (push m plans s).1.reports = reports at hopenings
    induction hopenings with
    | nil => exact List.forall_mem_nil _
    | cons hone _ ih =>
      refine List.forall_mem_cons.mpr ⟨⟨_, List.mem_cons_self .., hone⟩, fun x hx => ?_⟩
      obtain ⟨report, hreport, hopened⟩ := ih x hx
      exact ⟨report, List.mem_cons_of_mem _ hreport, hopened⟩
  refine ⟨xs, htalk, fun x hx type id hopens => ?_⟩
  obtain ⟨report, hreport, hopened⟩ :=
    hreported x (List.mem_filter.mpr ⟨hx, Exchange.isOpening_iff.mpr ⟨type, id, hopens⟩⟩)
  exact ⟨report, hreport, hopened.opens.unique hopens⟩

/-! ## Stage after stage -/

namespace Runner

/-- One stage, at some time. -/
def stage (m : Manager σ) (stage : Stage) (now : Instant) (r : Runner) (s : Session σ) :
    Runner × Session σ :=
  match stage with
  | .collect => (r.collect m now s).2
  | .transform => (r.transform.2, s)
  | .push => (r.push m s).2
  | .rollback => (r.rollback m s).2

/-- Stages one after the other, whether they fail or not. -/
def stages (m : Manager σ) (steps : List (Stage × Instant)) (r : Runner) (s : Session σ) :
    Runner × Session σ :=
  steps.foldl (fun (r, s) (stage, now) => r.stage m stage now s) (r, s)

theorem stages_snoc (m : Manager σ) (steps : List (Stage × Instant)) (last : Stage × Instant)
    (r : Runner) (s : Session σ) :
    stages m (steps ++ [last]) r s =
      (stages m steps r s).1.stage m last.1 last.2 (stages m steps r s).2 := by
  rw [stages, List.foldl_append]
  rfl

/-- The last push lists the profile among its reports. -/
def Holds (r : Runner) (type : ProfileType) (id : Uuid) : Prop :=
  ∃ pushed, r.pushed = some pushed ∧ ∃ report ∈ pushed.reports,
    report.profileType = type ∧ report.profileId = id

/-- What becomes of a profile at hand in one stage: it stays so, or a rollback deletes it, or
    another push takes the place of the one that lists it. -/
def Keeps (r r' : Runner) (stage : Stage) (xs : List Exchange) (type : ProfileType) (id : Uuid) :
    Prop :=
  r'.Holds type id ∨ (stage = .rollback ∧ ∃ x ∈ xs, x.call = .delete (type.profilePath id)) ∨
    (stage = .push ∧ r.transformed.isSome)

/-- What a stage does with profiles: every one that it opens is at hand after it, and it lets
    none go without a rollback or another push. -/
def Custody (r r' : Runner) (stage : Stage) (xs : List Exchange) : Prop :=
  ∀ type id, (∀ x ∈ xs, x.Opens type id → r'.Holds type id) ∧
    (r.Holds type id → Keeps r r' stage xs type id)

/-- A stage that leaves the last push in place and creates nothing keeps all profiles. -/
theorem custody_of_idle {r r' : Runner} {xs : List Exchange} (hpushed : r'.pushed = r.pushed)
    (hidle : ∀ x ∈ xs, x.call.method ≠ .post) (stage : Stage) : Custody r r' stage xs := by
  intro type id
  refine ⟨fun x hx hopens => absurd hopens.1 (hidle x hx), ?_⟩
  rintro ⟨pushed, hlast, hlisted⟩
  exact .inl ⟨pushed, hpushed.trans hlast, hlisted⟩

theorem collect_custody (m : Manager σ) (now : Instant) (r : Runner) (s : Session σ) :
    ∃ xs, m.Leads s xs (r.collect m now s).2.2 ∧
      Custody r (r.collect m now s).2.1 .collect xs := by
  obtain ⟨xs, htalk, hreads⟩ := Inquiry.run_reads m (collection now) s
  have hsame : (r.collect m now s).2.1.pushed = r.pushed ∧
      (r.collect m now s).2.2 = ((collection now).run m s).2 := by
    rw [collect, collect_eq_run]
    rcases (collection now).run m s with ⟨result, s'⟩
    cases result <;> exact ⟨rfl, rfl⟩
  refine ⟨xs, hsame.2 ▸ htalk, custody_of_idle hsame.1 (fun x hx => ?_) _⟩
  rw [hreads x hx]
  decide

theorem transform_custody (r : Runner) : Custody r r.transform.2 .transform [] := by
  refine custody_of_idle ?_ (List.forall_mem_nil _) _
  rw [transform]
  split
  · rfl
  · split <;> rfl

/-- A push lists every profile that it opens, and takes the place of the push before it. -/
theorem push_custody (m : Manager σ) (r : Runner) (s : Session σ) :
    ∃ xs, m.Leads s xs (r.push m s).2.2 ∧ Custody r (r.push m s).2.1 .push xs := by
  cases hplans : r.transformed with
  | none =>
    have hpush : (r.push m s).2 = (r, s) := by rw [push, hplans]
    rw [hpush]
    exact ⟨[], .refl m s, custody_of_idle rfl (List.forall_mem_nil _) _⟩
  | some plans =>
    obtain ⟨xs, htalk, hopens⟩ := push_opens m plans s
    rw [push_of_transformed m hplans s]
    refine ⟨xs, htalk, fun type id => ⟨fun x hx h => ?_, fun _ => .inr (.inr ⟨rfl, ?_⟩)⟩⟩
    · exact ⟨_, rfl, hopens x hx type id h⟩
    · rw [hplans]
      rfl

/-- A rollback deletes every profile that the last push lists, and opens none. -/
theorem rollback_custody (m : Manager σ) (r : Runner) (s : Session σ) :
    ∃ xs, m.Leads s xs (r.rollback m s).2.2 ∧ Custody r (r.rollback m s).2.1 .rollback xs := by
  cases hpushed : r.pushed with
  | none =>
    have hrollback : (r.rollback m s).2 = (r, s) := by rw [rollback, hpushed]
    rw [hrollback]
    exact ⟨[], .refl m s, custody_of_idle rfl (List.forall_mem_nil _) _⟩
  | some pushed =>
    obtain ⟨ds, hreports, hcalls, htalk, -⟩ := rollback_deletes m pushed s
    have hrollback : (r.rollback m s).2 =
        ({ r with pushed := none }, (ProfileMigration.rollback m pushed s).2) := by
      rw [rollback, hpushed]
    rw [hrollback]
    refine ⟨_, htalk, fun type id => ⟨fun x hx hopens => ?_, ?_⟩⟩
    · -- Nothing is created here
      obtain ⟨d, hd, rfl⟩ := List.mem_map.mp hx
      have hpost := hopens.1
      rw [hcalls d hd] at hpost
      cases hpost
    · rintro ⟨listed, hlisted, report, hreport, rfl, rfl⟩
      obtain rfl := Option.some.inj (hpushed.symm.trans hlisted)
      rw [← List.mem_reverse, ← hreports] at hreport
      obtain ⟨d, hd, rfl⟩ := List.mem_map.mp hreport
      exact .inr (.inl ⟨rfl, d.exchange, List.mem_map_of_mem hd, hcalls d hd⟩)

theorem stage_custody (m : Manager σ) (stage : Stage) (now : Instant) (r : Runner)
    (s : Session σ) :
    ∃ xs, m.Leads s xs (r.stage m stage now s).2 ∧
      Custody r (r.stage m stage now s).1 stage xs := by
  cases stage with
  | collect => exact collect_custody m now r s
  | transform => exact ⟨[], .refl m s, transform_custody r⟩
  | push => exact push_custody m r s
  | rollback => exact rollback_custody m r s

/-- A run in which another push took the place of the one that listed a profile. -/
def Replaced (m : Manager σ) (steps : List (Stage × Instant)) (r : Runner) (s : Session σ)
    (type : ProfileType) (id : Uuid) : Prop :=
  ∃ earlier now later, steps = earlier ++ (.push, now) :: later ∧
    (stages m earlier r s).1.Holds type id ∧ (stages m earlier r s).1.transformed.isSome

/-- A run in which a rollback took back the push that listed a profile. -/
def TakenBack (m : Manager σ) (steps : List (Stage × Instant)) (r : Runner) (s : Session σ)
    (type : ProfileType) (id : Uuid) : Prop :=
  ∃ earlier now later, steps = earlier ++ (.rollback, now) :: later ∧
    (stages m earlier r s).1.Holds type id

section

variable {steps : List (Stage × Instant)} {r : Runner} {s : Session σ} {type : ProfileType}
  {id : Uuid}

/-- What has become of a profile remains so through further stages. -/
theorem TakenBack.snoc (h : TakenBack m steps r s type id) (last : Stage × Instant) :
    TakenBack m (steps ++ [last]) r s type id := by
  obtain ⟨earlier, now, later, rfl, hheld⟩ := h
  exact ⟨earlier, now, later ++ [last], by simp, hheld⟩

theorem Replaced.snoc (h : Replaced m steps r s type id) (last : Stage × Instant) :
    Replaced m (steps ++ [last]) r s type id := by
  obtain ⟨earlier, now, later, rfl, hheld⟩ := h
  exact ⟨earlier, now, later ++ [last], by simp, hheld⟩

end

/-- In any sequence of stages, whatever the manager does, every profile that the manager created
    is listed by the last push at the end, or the rollback that took back the push that listed
    it asked for its deletion, or else another push took the place of that one. -/
theorem stages_custody (m : Manager σ) (steps : List (Stage × Instant)) (r : Runner) (state : σ) :
    let run := stages m steps r (.start state)
    ∀ before x after, run.2.exchanges = before ++ x :: after →
      ∀ type id, x.Opens type id → run.1.Holds type id ∨
        (TakenBack m steps r (.start state) type id ∧
          ∃ y ∈ after, y.call = .delete (type.profilePath id)) ∨
        Replaced m steps r (.start state) type id := by
  induction steps using List.reverseRecOn with
  | nil =>
    intro run before x after hsplit
    simp [run, stages, Session.start] at hsplit
  | append_singleton steps last ih =>
    intro run before x after hsplit type id hopens
    obtain ⟨stage, now⟩ := last
    obtain ⟨xs, htalk, hcustody⟩ := stage_custody m stage now (stages m steps r (.start state)).1
      (stages m steps r (.start state)).2
    obtain ⟨hnew, hold⟩ := hcustody type id
    have hrun : run = _ := stages_snoc m steps (stage, now) r (.start state)
    rw [hrun, htalk.exchanges] at hsplit
    rcases split_of_append hsplit with ⟨rest, hbefore, rfl⟩ | ⟨between, -, hxs⟩
    · -- The profile was there before this stage
      rcases ih before x rest hbefore type id hopens with hheld | ⟨htook, y, hy, hdelete⟩ | hother
      · rcases hold hheld with hheld' | ⟨rfl, y, hy, hdelete⟩ | ⟨rfl, hplans⟩
        · rw [hrun]
          exact .inl hheld'
        · exact .inr (.inl ⟨⟨steps, now, [], rfl, hheld⟩, y, List.mem_append_right _ hy, hdelete⟩)
        · exact .inr (.inr ⟨steps, now, [], rfl, hheld, hplans⟩)
      · exact .inr (.inl ⟨htook.snoc _, y, List.mem_append_left _ hy, hdelete⟩)
      · exact .inr (.inr (hother.snoc _))
    · -- This stage has opened it
      rw [hrun]
      exact .inl (hnew x (by rw [hxs]; simp) hopens)

/-! ## One list, pushed once and twice -/

/-- A manager with one policy list, which numbers the objects that it creates. -/
def oneListManager : Manager Nat where
  answer call n :=
    if call.method = .post then (.ok (.obj [("id", .str (Uuid.mk n).text)]), n + 1)
    else if call.path = Collection.policyLists then
      (.ok (.obj [("data", .arr [.obj [("listId", .str "l"), ("name", .str "apps"),
        ("type", .str "app"), ("entries", .arr [.obj [("app", .str "mail")]])]])]), n)
    else (.ok (.obj [("data", .arr [])]), n)
  stopped _ := false

/-- Stages that are all done at one time. -/
def atOnce (stages : List Stage) : List (Stage × Instant) := stages.map fun stage => (stage, ⟨0, 0⟩)

theorem stages_custody_oneList :
    let steps := atOnce [.collect, .transform, .push, .rollback]
    let run := stages oneListManager steps (start "") (.start 1)
    ∃ before x after, run.2.exchanges = before ++ x :: after ∧ x.Opens .policyObject ⟨1⟩ ∧
      (run.1.Holds .policyObject ⟨1⟩ ∨
        (TakenBack oneListManager steps (start "") (.start 1) .policyObject ⟨1⟩ ∧
          ∃ y ∈ after, y.call = .delete (ProfileType.profilePath .policyObject ⟨1⟩)) ∨
        Replaced oneListManager steps (start "") (.start 1) .policyObject ⟨1⟩) := by
  intro steps run
  have hopens : ∃ x ∈ run.2.exchanges, x.Opens .policyObject ⟨1⟩ := by decide +kernel
  obtain ⟨x, hx, hopens⟩ := hopens
  obtain ⟨before, after, hsplit⟩ := List.append_of_mem hx
  exact ⟨before, x, after, hsplit, hopens,
    stages_custody oneListManager steps (start "") 1 before x after hsplit _ _ hopens⟩

/-- A run that pushes twice loses track of what it created first: a rollback deletes the
    profile of the second push, and no other. -/
theorem stages_pushed_twice :
    ¬ ∀ steps, let run := stages oneListManager steps (start "") (.start 1)
      ∀ x ∈ run.2.exchanges, ∀ type id, x.Opens type id → run.1.Holds type id ∨
        ∃ y ∈ run.2.exchanges, y.call = .delete (type.profilePath id) := by
  intro hall
  have hrun := hall (atOnce [.collect, .transform, .push, .push, .rollback])
  generalize hend : stages oneListManager
    (atOnce [.collect, .transform, .push, .push, .rollback]) (start "") (.start 1) = run at hrun
  have hopens : ∃ x ∈ run.2.exchanges, x.Opens .policyObject ⟨1⟩ := by
    rw [← hend]
    decide +kernel
  have hpushed : run.1.pushed = none := by
    rw [← hend]
    decide +kernel
  have hkept : ¬ ∃ y ∈ run.2.exchanges,
      y.call = .delete (ProfileType.profilePath .policyObject ⟨1⟩) := by
    rw [← hend]
    decide +kernel
  obtain ⟨x, hx, hopens⟩ := hopens
  rcases hrun x hx .policyObject ⟨1⟩ hopens with ⟨pushed, hlisted, -⟩ | hdeleted
  · rw [hpushed] at hlisted
    cases hlisted
  · exact hkept hdeleted

end Runner

end ProfileMigration
