/-
  ProfileMigration.Proofs.Manager.Conversation

  What a session gains when a manager is asked:

    Exchange.id?            -- the identifier that an answer carries
    Manager.Answers         -- the answers a manager gives between two of its states
    Manager.Leads           -- one session goes on from another by certain exchanges
    Manager.leads_ask       -- one call is one exchange
-/
import ProfileMigration.Manager.Session

namespace ProfileMigration

/-- The identifier of a new object in the answer, if there is an answer with one. -/
def Exchange.id? (x : Exchange) : Option Uuid := x.answer.toOption.bind createdId

namespace Manager

variable {σ : Type} {m : Manager σ}

/-- A manager gives these answers, one after the other, on its way between two states. -/
inductive Answers (m : Manager σ) : σ → List Exchange → σ → Prop
  | nil {s : σ} : Answers m s [] s
  | cons {s s' : σ} {x : Exchange} {rest : List Exchange} (h : (m.answer x.call s).1 = x.answer)
      (hrest : Answers m (m.answer x.call s).2 rest s') : Answers m s (x :: rest) s'

theorem Answers.append {s s' s'' : σ} {xs ys : List Exchange} (h : Answers m s xs s')
    (h' : Answers m s' ys s'') : Answers m s (xs ++ ys) s'' := by
  induction h with
  | nil => exact h'
  | cons hx _ ih => exact .cons hx (ih h')

/-- Every answer is one that the manager gives in some state. -/
theorem Answers.answer_of_mem {s s' : σ} {xs : List Exchange} (h : Answers m s xs s')
    {x : Exchange} (hx : x ∈ xs) : ∃ state, (m.answer x.call state).1 = x.answer := by
  induction h with
  | nil => exact absurd hx List.not_mem_nil
  | @cons s _ y rest hy _ ih =>
    rcases List.mem_cons.mp hx with rfl | hmem
    · exact ⟨s, hy⟩
    · exact ih hmem

/-- A session goes on from an earlier one by these exchanges, with the manager's answers. -/
structure Leads (m : Manager σ) (s : Session σ) (xs : List Exchange) (s' : Session σ) : Prop where
  exchanges : s'.exchanges = s.exchanges ++ xs
  answers : m.Answers s.state xs s'.state

namespace Leads

variable {s s' s'' : Session σ} {xs ys : List Exchange}

theorem refl (m : Manager σ) (s : Session σ) : m.Leads s [] s :=
  ⟨(List.append_nil _).symm, .nil⟩

theorem trans (h : m.Leads s xs s') (h' : m.Leads s' ys s'') : m.Leads s (xs ++ ys) s'' where
  exchanges := by rw [h'.exchanges, h.exchanges, List.append_assoc]
  answers := h.answers.append h'.answers

end Leads

theorem leads_ask (m : Manager σ) (call : Call) (s : Session σ) :
    m.Leads s [⟨call, (m.ask call s).1⟩] (m.ask call s).2 :=
  ⟨m.exchanges_ask call s, .cons rfl .nil⟩

/-- One call, taken apart. -/
theorem leads_of_ask {call : Call} {s s' : Session σ} {answer : Except TransportError Json}
    (h : m.ask call s = (answer, s')) : m.Leads s [⟨call, answer⟩] s' := by
  have hask := m.leads_ask call s
  rw [h] at hask
  exact hask

end Manager

end ProfileMigration
