/-
  ProfileMigration.Proofs.Run.Atomicity

  What a stage changes, and what it leaves alone:

    StageResult             -- what a stage gives when it does not fail
    Runner.after            -- a run in which a result has its place
    Runner.misuse?          -- why a stage is out of turn
    Runner.perform          -- a stage, with its outcome
    Performed.Atomic        -- it puts its result in its place, or changes nothing
    Runner.performed_atomic -- every stage is like that
    Runner.history          -- the stages of a run as they were performed
    Runner.stages_atomic    -- what a run ends with are the results of those that did not fail

  A stage out of turn makes no call. Of the others only collecting fails, with a list that cannot be
  read; it has then made calls, but keeps nothing of what it has read.
-/
import ProfileMigration.Proofs.Collection.Account
import ProfileMigration.Proofs.Run.Custody

namespace ProfileMigration

variable {σ : Type}

/-! ## Results -/

/-- What a stage gives. -/
inductive StageResult where
  | collected (tree : CollectedTree)
  | transformed (result : TransformResult)
  | pushed (result : PushResult)
  | rolledBack (report : RollbackReport)

/-- The stage that gives such a result. -/
def StageResult.stage : StageResult → Stage
  | collected _ => .collect
  | transformed _ => .transform
  | pushed _ => .push
  | rolledBack _ => .rollback

namespace Runner

/-- The run with a result in its place and all else as before; a rollback empties the place of the
    push. -/
def after (r : Runner) : StageResult → Runner
  | .collected tree => { r with collected := some tree }
  | .transformed result => { r with transformed := some result }
  | .pushed result => { r with pushed := some result }
  | .rolledBack _ => { r with pushed := none }

/-- Why a stage is out of turn, if it is: what it works on is not there, or is incomplete. -/
def misuse? (r : Runner) : Stage → Option Misuse
  | .collect => none
  | .transform =>
    match r.collected with
    | none => some .nothingToTransform
    | some tree => if tree.cancelled then some .collectionIncomplete else none
  | .push => if r.transformed.isSome then none else some .nothingToPush
  | .rollback => if r.pushed.isSome then none else some .nothingToRollBack

/-- One stage with its outcome. -/
def perform (m : Manager σ) (stage : Stage) (now : Instant) (r : Runner) (s : Session σ) :
    Except MigrationError StageResult × Runner × Session σ :=
  match stage with
  | .collect => (r.collect m now s).map (Except.map .collected) id
  | .transform => (r.transform.1.map .transformed, r.transform.2, s)
  | .push => (r.push m s).map (Except.map .pushed) id
  | .rollback => (r.rollback m s).map (Except.map .rolledBack) id

theorem snd_perform (m : Manager σ) (stage : Stage) (now : Instant) (r : Runner) (s : Session σ) :
    (r.perform m stage now s).2 = r.stage m stage now s := by
  cases stage <;> rfl

end Runner

/-! ## One stage -/

/-- A stage that was performed: the run and the session before and after it, and its outcome. -/
structure Performed (σ : Type) where
  stage : Stage
  before : Runner × Session σ
  outcome : Except MigrationError StageResult
  after : Runner × Session σ

/-- A stage changes the run only by putting its result in its place. It is refused exactly if it is
    out of turn, and then nothing is asked. Otherwise only a collection can fail, with the answer to
    its last question: the one list of those asked for that cannot be read. -/
structure Performed.Atomic (m : Manager σ) (p : Performed σ) (xs : List Exchange) : Prop where
  talk : m.Leads p.before.2 xs p.after.2
  done : ∀ result, p.outcome = .ok result →
    result.stage = p.stage ∧ p.after.1 = p.before.1.after result
  failed : ∀ e, p.outcome = .error e → p.after.1 = p.before.1
  misused : ∀ e, p.outcome = .error (.misuse e) ↔ p.before.1.misuse? p.stage = some e
  silent : p.before.1.misuse? p.stage ≠ none → xs = [] ∧ p.after.2 = p.before.2
  refused : ∀ e, p.outcome = .error (.transport e) → p.stage = .collect ∧
    ∃ earlier x, xs = earlier ++ [x] ∧ (∀ y ∈ earlier, Collection.refusal? y = none) ∧
      Collection.refusal? x = some e

namespace Performed.Atomic

variable {m : Manager σ} {stage : Stage} {r r' : Runner} {s s' : Session σ} {xs : List Exchange}

/-- A stage in turn that gives a result is atomic. -/
theorem of_ok {result : StageResult} (hresult : result.stage = stage)
    (hturn : r.misuse? stage = none) (htalk : m.Leads s xs s') :
    Atomic m ⟨stage, (r, s), .ok result, (r.after result, s')⟩ xs where
  talk := htalk
  done := by
    rintro _ ⟨⟩
    exact ⟨hresult, rfl⟩
  failed := by rintro _ ⟨⟩
  misused := fun e => iff_of_false (by rintro ⟨⟩) (by rw [hturn]; rintro ⟨⟩)
  silent := fun hmisused => absurd hturn hmisused
  refused := by rintro _ ⟨⟩

/-- A stage that is refused because it is out of turn is atomic. -/
theorem of_misuse {e : Misuse} (hmisuse : r.misuse? stage = some e) :
    Atomic m ⟨stage, (r, s), .error (.misuse e), (r, s)⟩ [] where
  talk := .refl m s
  done := by rintro _ ⟨⟩
  failed := fun _ _ => rfl
  misused := by
    intro e'
    rw [hmisuse]
    exact ⟨by rintro ⟨⟩; rfl, by rintro ⟨⟩; rfl⟩
  silent := fun _ => ⟨rfl, rfl⟩
  refused := by rintro _ ⟨⟩

/-- A stage in turn, after collecting, gives a result. -/
theorem done_of_turn {p : Performed σ} (h : p.Atomic m xs) (hstage : p.stage ≠ .collect)
    (hturn : p.before.1.misuse? p.stage = none) : ∃ result, p.outcome = .ok result := by
  cases houtcome : p.outcome with
  | ok result => exact ⟨result, rfl⟩
  | error e =>
    cases e with
    | transport e => exact absurd (h.refused e houtcome).1 hstage
    | misuse e =>
      rw [(h.misused e).mp houtcome] at hturn
      cases hturn

end Performed.Atomic

/-- A collection that fails does so with the answer to its last question. -/
theorem Inquiry.refuses_of_run (m : Manager σ) (now : Instant) (s : Session σ) :
    ∃ xs, m.Leads s xs ((collection now).run m s).2 ∧
      ∀ e, ((collection now).run m s).1 = .error e →
        ∃ earlier x, xs = earlier ++ [x] ∧ (∀ y ∈ earlier, Collection.refusal? y = none) ∧
          Collection.refusal? x = some e := by
  obtain ⟨xs, rest, htalk, hasks, hresult, -⟩ := (collection now).run_asks m s
  refine ⟨xs, htalk, fun e he => ?_⟩
  rw [hresult] at he
  cases rest with
  | done tree => cases he
  | ask path before next => cases he
  | failed e' =>
    obtain rfl : e' = e := Except.error.inj he
    rcases Collection.asks_collection hasks rfl with
      ⟨earlier, x, _, rfl, hnone, hsome, ⟨⟩⟩ | ⟨_, _, _, ⟨⟩⟩
    exact ⟨earlier, x, rfl, hnone, hsome⟩

namespace Runner

open Performed (Atomic)

variable (m : Manager σ) (now : Instant) (r : Runner) (s : Session σ)

/-- A stage as it is performed on a run. -/
def performed (stage : Stage) : Performed σ :=
  ⟨stage, (r, s), (r.perform m stage now s).1, (r.perform m stage now s).2⟩

theorem collect_atomic : ∃ xs, (performed m now r s .collect).Atomic m xs := by
  obtain ⟨xs, htalk, hrefused⟩ := Inquiry.refuses_of_run m now s
  refine ⟨xs, ?_⟩
  rw [performed, perform, collect, collect_eq_run]
  generalize (collection now).run m s = run at htalk hrefused
  obtain ⟨outcome, s'⟩ := run
  cases outcome with
  | ok tree => exact .of_ok rfl rfl htalk
  | error e =>
    exact {
      talk := htalk
      done := by rintro _ ⟨⟩
      failed := fun _ _ => rfl
      misused := fun _ => iff_of_false (by rintro ⟨⟩) (by rintro ⟨⟩)
      silent := fun hmisused => absurd rfl hmisused
      refused := by
        rintro _ ⟨⟩
        exact ⟨rfl, hrefused e rfl⟩ }

theorem transform_atomic : (performed m now r s .transform).Atomic m [] := by
  cases hcollected : r.collected with
  | none =>
    have htransform : r.transform = (.error (.misuse .nothingToTransform), r) := by
      rw [transform, hcollected]
    rw [performed, perform, htransform]
    exact .of_misuse (by simp [misuse?, hcollected])
  | some tree =>
    cases hcancelled : tree.cancelled with
    | true =>
      have htransform : r.transform = (.error (.misuse .collectionIncomplete), r) := by
        rw [transform, hcollected]
        exact if_pos hcancelled
      rw [performed, perform, htransform]
      exact .of_misuse (by simp [misuse?, hcollected, hcancelled])
    | false =>
      have htransform : r.transform = (.ok (ProfileMigration.transform tree .empty r.mark).1,
          { r with transformed := some (ProfileMigration.transform tree .empty r.mark).1 }) := by
        rw [transform, hcollected]
        exact if_neg (by rw [hcancelled]; decide)
      rw [performed, perform, htransform]
      exact .of_ok rfl (by simp [misuse?, hcollected, hcancelled]) (.refl m s)

theorem push_atomic : ∃ xs, (performed m now r s .push).Atomic m xs := by
  cases hplans : r.transformed with
  | none =>
    have hpush : r.push m s = (.error (.misuse .nothingToPush), r, s) := by rw [push, hplans]
    rw [performed, perform, hpush]
    exact ⟨[], .of_misuse (by simp [misuse?, hplans])⟩
  | some plans =>
    obtain ⟨xs, htalk, -⟩ := push_openings m plans s
    rw [performed, perform, push_of_transformed m hplans s]
    exact ⟨xs, .of_ok rfl (by simp [misuse?, hplans]) htalk⟩

theorem rollback_atomic : ∃ xs, (performed m now r s .rollback).Atomic m xs := by
  cases hpushed : r.pushed with
  | none =>
    have hrollback : r.rollback m s = (.error (.misuse .nothingToRollBack), r, s) := by
      rw [rollback, hpushed]
    rw [performed, perform, hrollback]
    exact ⟨[], .of_misuse (by simp [misuse?, hpushed])⟩
  | some pushed =>
    obtain ⟨ds, -, -, htalk, -⟩ := rollback_deletes m pushed s
    have hrollback : r.rollback m s = (.ok (ProfileMigration.rollback m pushed s).1,
        { r with pushed := none }, (ProfileMigration.rollback m pushed s).2) := by
      rw [rollback, hpushed]
    rw [performed, perform, hrollback]
    exact ⟨_, .of_ok rfl (by simp [misuse?, hpushed]) htalk⟩

/-- Every stage puts its result in its place, or changes nothing. -/
theorem performed_atomic (stage : Stage) : ∃ xs, (performed m now r s stage).Atomic m xs := by
  cases stage with
  | collect => exact collect_atomic m now r s
  | transform => exact ⟨[], transform_atomic m now r s⟩
  | push => exact push_atomic m now r s
  | rollback => exact rollback_atomic m now r s

end Runner

/-! ## Stage after stage -/

namespace Runner

/-- The stages of a run as they are performed, one after the other. -/
def history (m : Manager σ) : List (Stage × Instant) → Runner → Session σ → List (Performed σ)
  | [], _, _ => []
  | (stage, now) :: rest, r, s =>
    performed m now r s stage ::
      history m rest (r.perform m stage now s).2.1 (r.perform m stage now s).2.2

/-- A draft made of a plan has a name, so its build is never refused as out of turn. -/
theorem build_draft_ne_misuse (m : Manager σ) (plan : ProfilePlan) (ids : RemoteIds)
    (s : Session σ) (e : Misuse) : ((plan.draft ids).build m s).1 ≠ .error (.misuse e) := by
  have hheader : (plan.draft ids).header = some plan.header := rfl
  rw [Draft.build, hheader]
  dsimp only
  split <;> rintro ⟨⟩

section

variable (m : Manager σ) (steps : List (Stage × Instant)) (r : Runner) (s : Session σ)

theorem map_stage_history :
    (history m steps r s).map Performed.stage = steps.map Prod.fst := by
  induction steps generalizing r s with
  | nil => rfl
  | cons step rest ih =>
    rw [history, List.map_cons, List.map_cons, ih]
    rfl

variable {m steps r s} in
theorem atomic_of_mem_history {p : Performed σ} (hp : p ∈ history m steps r s) :
    ∃ xs, p.Atomic m xs := by
  induction steps generalizing r s with
  | nil => cases hp
  | cons step rest ih =>
    rcases List.mem_cons.mp hp with rfl | hp
    · exact performed_atomic m step.2 r s step.1
    · exact ih hp

/-- What a run ends with are the results of its stages, put in place one after the other. -/
theorem fst_stages : (stages m steps r s).1 =
    ((history m steps r s).filterMap fun p => p.outcome.toOption).foldl after r := by
  induction steps generalizing r s with
  | nil => rfl
  | cons step rest ih =>
    obtain ⟨stage, now⟩ := step
    obtain ⟨xs, h⟩ := performed_atomic m now r s stage
    have hstep : stages m ((stage, now) :: rest) r s =
        stages m rest (r.perform m stage now s).2.1 (r.perform m stage now s).2.2 := by
      rw [snd_perform]
      rfl
    rw [hstep, ih, history, List.filterMap_cons]
    cases houtcome : (performed m now r s stage).outcome with
    | ok result =>
      have hafter : (r.perform m stage now s).2.1 = r.after result := (h.done result houtcome).2
      rw [hafter]
      rfl
    | error e =>
      have hsame : (r.perform m stage now s).2.1 = r := h.failed e houtcome
      rw [hsame]
      rfl

end

/-- In any sequence of stages on any run, whatever the manager does, every stage is atomic, and at
    the end the run has what the stages that did not fail put there one after the other. A stage
    after collecting fails only if it is out of turn, as nothing in a push is. -/
theorem stages_atomic (m : Manager σ) (steps : List (Stage × Instant)) (r : Runner)
    (s : Session σ) :
    (history m steps r s).map Performed.stage = steps.map Prod.fst ∧
      (∀ p ∈ history m steps r s, (∃ xs, p.Atomic m xs) ∧
        (p.stage ≠ .collect → p.before.1.misuse? p.stage = none →
          ∃ result, p.outcome = .ok result)) ∧
      (stages m steps r s).1 =
        ((history m steps r s).filterMap fun p => p.outcome.toOption).foldl after r ∧
      ∀ (plan : ProfilePlan) ids s e, ((plan.draft ids).build m s).1 ≠ .error (.misuse e) := by
  refine ⟨map_stage_history m steps r s, ?_, fst_stages m steps r s, build_draft_ne_misuse m⟩
  intro p hp
  obtain ⟨xs, h⟩ := atomic_of_mem_history hp
  exact ⟨⟨xs, h⟩, h.done_of_turn⟩

end Runner

end ProfileMigration
