/-
  ProfileMigration.Proofs.Collection.Questions

  Questions that were put to a manager, as the exchanges they led to:

    Inquiry.Asks        -- the first questions of an inquiry, and the inquiry that is left
    Inquiry.isOver      -- an inquiry without questions
    Inquiry.outcome     -- what a run gives that stops before the questions that are left
    Inquiry.run_asks    -- every run puts the first questions, and all of them unless it stops
    Inquiry.run_unstopped -- a run that nobody stops puts all of them

  What is read from a manager depends on its answers only. So what holds of a run is said of the
  questions and answers, and the manager with its states is left behind here.
-/
import ProfileMigration.Proofs.Collection.Inquiry
import ProfileMigration.Proofs.Manager.Conversation

namespace ProfileMigration

variable {σ : Type}

namespace Inquiry

/-- The first questions of an inquiry with their answers, and what is still to be asked then. -/
inductive Asks : Inquiry → List Exchange → Inquiry → Prop
  | nil {inquiry : Inquiry} : Asks inquiry [] inquiry
  | cons {path : String} {before : CollectedTree} {next : Except TransportError Json → Inquiry}
    {x : Exchange} {xs : List Exchange} {rest : Inquiry} (hcall : x.call = .read path)
    (hrest : Asks (next x.answer) xs rest) : Asks (.ask path before next) (x :: xs) rest

/-- Whether there is nothing more to ask. -/
def isOver : Inquiry → Bool
  | done _ | failed _ => true
  | ask .. => false

/-- What comes of an inquiry that stops here. -/
def outcome : Inquiry → Except TransportError CollectedTree
  | done tree => .ok tree
  | failed e => .error e
  | ask _ before _ => .ok { before with cancelled := true }

namespace Asks

variable {inquiry rest : Inquiry} {xs : List Exchange}

/-- Questions only read. -/
theorem reads (h : inquiry.Asks xs rest) : ∀ x ∈ xs, x.call.method = .get := by
  induction h with
  | nil => exact List.forall_mem_nil _
  | cons hcall _ ih => exact List.forall_mem_cons.mpr ⟨by rw [hcall]; rfl, ih⟩

/-- An inquiry that gets over with its questions begins with the one it asks first. -/
theorem of_ask {path : String} {before : CollectedTree}
    {next : Except TransportError Json → Inquiry} (h : (ask path before next).Asks xs rest)
    (hover : rest.isOver = true) :
    ∃ x xs', xs = x :: xs' ∧ x.call = .read path ∧ (next x.answer).Asks xs' rest := by
  cases h with
  | nil => cases hover
  | cons hcall hrest => exact ⟨_, _, rfl, hcall, hrest⟩

/-- Without questions nothing is asked. -/
theorem eq_of_isOver (h : inquiry.Asks xs rest) (hover : inquiry.isOver = true) :
    xs = [] ∧ rest = inquiry := by
  cases h with
  | nil => exact ⟨rfl, rfl⟩
  | cons _ _ => cases hover

end Asks

/-- A run puts the first questions of an inquiry. Where it leaves some out, it was to stop. -/
theorem run_asks (m : Manager σ) (inquiry : Inquiry) (s : Session σ) :
    ∃ xs rest, m.Leads s xs (inquiry.run m s).2 ∧ inquiry.Asks xs rest ∧
      (inquiry.run m s).1 = rest.outcome ∧
      (rest.isOver = false → m.stopped (inquiry.run m s).2.state = true) := by
  induction inquiry generalizing s with
  | done tree => exact ⟨[], _, .refl m s, .nil, rfl, nofun⟩
  | failed e => exact ⟨[], _, .refl m s, .nil, rfl, nofun⟩
  | ask path before next ih =>
    rw [run]
    by_cases hstop : m.stopped s.state = true
    · rw [if_pos hstop]
      exact ⟨[], _, .refl m s, .nil, rfl, fun _ => hstop⟩
    · rw [if_neg hstop]
      obtain ⟨xs, rest, htalk, hasks, hresult, hleft⟩ :=
        ih (m.ask (.read path) s).1 (m.ask (.read path) s).2
      exact ⟨_, rest, (m.leads_ask (.read path) s).trans htalk, .cons rfl hasks, hresult, hleft⟩

/-- A run that nobody stops puts all questions. -/
theorem run_unstopped (m : Manager σ) (inquiry : Inquiry) (s : Session σ) :
    ∃ xs rest, m.unstopped.Leads s xs (inquiry.run m.unstopped s).2 ∧ inquiry.Asks xs rest ∧
      rest.isOver = true ∧ (inquiry.run m.unstopped s).1 = rest.outcome := by
  obtain ⟨xs, rest, htalk, hasks, hresult, hleft⟩ := run_asks m.unstopped inquiry s
  refine ⟨xs, rest, htalk, hasks, ?_, hresult⟩
  rw [← Bool.not_eq_false]
  intro hmore
  cases hleft hmore

end Inquiry

end ProfileMigration
