/-
  ProfileMigration.Manager.Session

  Talking to a manager:

    Manager             -- how a manager answers calls, and whether the run is to stop
    Session             -- its state, and the exchanges so far
    Manager.ask         -- one call

  A manager's answers may depend on everything asked before, by way of its state. What a run
  did is read off the exchanges of its session, oldest first.

  `Manager` models what is behind a `Transport`, together with the cancellation token of a run.
-/
import ProfileMigration.Manager.Call

namespace ProfileMigration

/-- A manager whose answers depend on a state. -/
structure Manager (σ : Type) where
  /-- The answer to a call, and the state after it. -/
  answer : Call → σ → Except TransportError Json × σ
  /-- Whether someone has asked the run to stop. -/
  stopped : σ → Bool

/-- A call and its answer. -/
structure Exchange where
  call : Call
  answer : Except TransportError Json

/-- A manager's state and the exchanges that led to it, oldest first. -/
structure Session (σ : Type) where
  state : σ
  exchanges : List Exchange

namespace Session

variable {σ : Type}

/-- A session in which nothing has been asked. -/
def start (state : σ) : Session σ := ⟨state, []⟩

/-- The calls made so far, oldest first. -/
def calls (s : Session σ) : List Call := s.exchanges.map Exchange.call

end Session

namespace Manager

variable {σ : Type}

/-- Makes one call. -/
def ask (m : Manager σ) (call : Call) (s : Session σ) : Except TransportError Json × Session σ :=
  let (answer, state) := m.answer call s.state
  (answer, ⟨state, s.exchanges ++ [⟨call, answer⟩]⟩)

/-- A manager that answers in the same way, in a run that nobody stops. -/
def unstopped (m : Manager σ) : Manager σ := { m with stopped := fun _ => false }

theorem exchanges_ask (m : Manager σ) (call : Call) (s : Session σ) :
    (m.ask call s).2.exchanges = s.exchanges ++ [⟨call, (m.ask call s).1⟩] := rfl

end Manager

end ProfileMigration
