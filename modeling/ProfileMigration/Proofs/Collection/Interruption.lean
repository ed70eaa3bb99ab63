/-
  ProfileMigration.Proofs.Collection.Interruption

  A collection that is stopped after so many answers, against the one that is not:

    Manager.stoppedAfter        -- the same manager, in a run that is to stop after some answers
    CollectedTree.Begins        -- a tree holds the first entries of another
    Inquiry.Grows               -- what has been read stays, whatever is read after it
    Inquiry.run_stoppedAfter    -- the run that is stopped puts the first questions of the other
    collect_stops               -- what a stopped collection has and says

  Both runs are followed side by side through the questions. They get the same answers, so the
  stopped one stands at some question of the other when it ends, or is over as well.
-/
import ProfileMigration.Proofs.Collection.Account

namespace ProfileMigration

variable {σ : Type}

/-! ## Stopping after some answers -/

/-- A manager that answers in the same way and counts its answers, in a run that is to stop
    once there are so many. -/
def Manager.stoppedAfter (m : Manager σ) (count : Nat) : Manager (σ × Nat) where
  answer call s := ((m.answer call s.1).1, ((m.answer call s.1).2, s.2 + 1))
  stopped s := decide (count ≤ s.2)

/-- A session with a manager that has counted so many answers. -/
def Session.counting (s : Session σ) (n : Nat) : Session (σ × Nat) := ⟨(s.state, n), s.exchanges⟩

namespace Inquiry

namespace Asks

variable {inquiry mid rest : Inquiry} {xs ys : List Exchange}

/-- Questions that follow on questions. -/
theorem append (h : inquiry.Asks xs mid) (h' : mid.Asks ys rest) :
    inquiry.Asks (xs ++ ys) rest := by
  induction h with
  | nil => exact h'
  | cons hcall _ ih => exact .cons hcall (ih h')

theorem eq_of_nil (h : inquiry.Asks [] rest) : inquiry = rest := by
  cases h with
  | nil => rfl

end Asks

/-- A run that is to stop after some answers puts the questions of the run that nobody stops, up
    to that many, and comes to where that one is with these answers. -/
theorem run_stoppedAfter (m : Manager σ) (count : Nat) (inquiry : Inquiry) (s : Session σ)
    (n : Nat) :
    ∃ xs mid rest, m.unstopped.Leads s xs (inquiry.run m.unstopped s).2 ∧
      (inquiry.run m.unstopped s).1 = rest.outcome ∧ rest.isOver = true ∧
      (m.stoppedAfter count).Leads (s.counting n) (xs.take (count - n))
        (inquiry.run (m.stoppedAfter count) (s.counting n)).2 ∧
      (inquiry.run (m.stoppedAfter count) (s.counting n)).1 = mid.outcome ∧
      inquiry.Asks (xs.take (count - n)) mid ∧ mid.Asks (xs.drop (count - n)) rest := by
  induction inquiry generalizing s n with
  | done tree =>
    refine ⟨[], .done tree, .done tree, .refl _ s, rfl, rfl, ?_⟩
    rw [List.take_nil, List.drop_nil]
    exact ⟨.refl _ _, rfl, .nil, .nil⟩
  | failed e =>
    refine ⟨[], .failed e, .failed e, .refl _ s, rfl, rfl, ?_⟩
    rw [List.take_nil, List.drop_nil]
    exact ⟨.refl _ _, rfl, .nil, .nil⟩
  | ask path before next ih =>
    by_cases hstop : count ≤ n
    · -- Nothing more is asked, so all questions of the other run are left
      obtain ⟨xs, rest, htalk, hasks, hover, hresult⟩ := (ask path before next).run_unstopped m s
      have hcut : (ask path before next).run (m.stoppedAfter count) (s.counting n) =
          ((ask path before next).outcome, s.counting n) :=
        if_pos (decide_eq_true hstop)
      refine ⟨xs, ask path before next, rest, htalk, hresult, hover, ?_⟩
      rw [Nat.sub_eq_zero_of_le hstop, List.take_zero, List.drop_zero, hcut]
      exact ⟨.refl _ _, rfl, .nil, hasks⟩
    · -- Both runs ask, and get one answer
      obtain ⟨xs, mid, rest, htalk, hresult, hover, htalk', hresult', hasks, hleft⟩ :=
        ih (m.unstopped.ask (.read path) s).1 (m.unstopped.ask (.read path) s).2 (n + 1)
      have hcut : (ask path before next).run (m.stoppedAfter count) (s.counting n) =
          (next (m.unstopped.ask (.read path) s).1).run (m.stoppedAfter count)
            ((m.unstopped.ask (.read path) s).2.counting (n + 1)) :=
        if_neg (by simpa [Manager.stoppedAfter, Session.counting] using hstop)
      have hcount : count - n = count - (n + 1) + 1 := by omega
      have hone := (m.stoppedAfter count).leads_ask (.read path) (s.counting n)
      refine ⟨_, mid, rest, (m.unstopped.leads_ask (.read path) s).trans htalk, hresult, hover, ?_⟩
      rw [hcut, hcount, List.singleton_append, List.take_succ_cons, List.drop_succ_cons]
      exact ⟨hone.trans htalk', hresult', .cons rfl hasks, hleft⟩

end Inquiry

/-! ## What has been read -/

/-- A tree of the same time, whose lists are the first entries of those of the other tree. -/
structure CollectedTree.Begins (t full : CollectedTree) : Prop where
  collectedAt : t.collectedAt = full.collectedAt
  featureTemplates : t.featureTemplates <+: full.featureTemplates
  deviceTemplates : t.deviceTemplates <+: full.deviceTemplates
  policyLists : t.policyLists <+: full.policyLists
  policyDefinitions : t.policyDefinitions <+: full.policyDefinitions
  failures : t.failures <+: full.failures

namespace CollectedTree.Begins

variable {t t' t'' : CollectedTree}

theorem refl (t : CollectedTree) : t.Begins t :=
  ⟨rfl, List.prefix_rfl, List.prefix_rfl, List.prefix_rfl, List.prefix_rfl, List.prefix_rfl⟩

theorem trans (h : t.Begins t') (h' : t'.Begins t'') : t.Begins t'' where
  collectedAt := h.collectedAt.trans h'.collectedAt
  featureTemplates := h.featureTemplates.trans h'.featureTemplates
  deviceTemplates := h.deviceTemplates.trans h'.deviceTemplates
  policyLists := h.policyLists.trans h'.policyLists
  policyDefinitions := h.policyDefinitions.trans h'.policyDefinitions
  failures := h.failures.trans h'.failures

end CollectedTree.Begins

theorem Collection.Entry.begins_addTo (t : CollectedTree) (e : Collection.Entry) :
    t.Begins (e.addTo t) := by
  cases e with
  | object o =>
    cases hcategory : o.category <;> rw [addTo, hcategory] <;> constructor <;> simp
  | device d => constructor <;> simp [addTo]
  | failure f => constructor <;> simp [addTo]

/-- An inquiry that has read a tree already keeps all of it, and each of its questions keeps what
    was read before. -/
def Inquiry.Grows (t : CollectedTree) : Inquiry → Prop
  | done tree => t.Begins tree
  | failed _ => True
  | ask _ before next => t.Begins before ∧ ∀ answer, (next answer).Grows before

namespace Inquiry.Grows

variable {t t' : CollectedTree} {inquiry rest : Inquiry} {xs : List Exchange}

theorem done (t : CollectedTree) : (Inquiry.done t).Grows t := .refl t

theorem of_begins (h : inquiry.Grows t') (hbegins : t.Begins t') : inquiry.Grows t := by
  cases inquiry with
  | done tree => exact hbegins.trans h
  | failed e => trivial
  | ask path before next => exact ⟨hbegins.trans h.1, h.2⟩

/-- With some questions answered nothing is lost. -/
theorem of_asks (h : inquiry.Grows t) (hasks : inquiry.Asks xs rest) : rest.Grows t := by
  induction hasks generalizing t with
  | nil => exact h
  | cons _ _ ih => exact (ih (h.2 _)).of_begins h.1

/-- What was read before a question is the beginning of what is read in the end. -/
theorem begins {path : String} {before full : CollectedTree}
    {next : Except TransportError Json → Inquiry} (h : (ask path before next).Grows t)
    (hasks : (ask path before next).Asks xs (.done full)) : before.Begins full := by
  obtain ⟨x, later, -, -, hlater⟩ := hasks.of_ask rfl
  exact (h.2 x.answer).of_asks hlater

end Inquiry.Grows

namespace Collection

theorem grows_listing {ρ : Type} {path : String} {row : Wire.Reader ρ} {t : CollectedTree}
    {next : List ρ → Inquiry} (hnext : ∀ found, (next found).Grows t) :
    (listing path row t next).Grows t := by
  refine ⟨.refl t, fun answer => ?_⟩
  dsimp only
  cases answer.bind (decode (rows row) path) with
  | error e => trivial
  | ok found => exact hnext found

theorem grows_details {ρ : Type} {path : ρ → String}
    {add : CollectedTree → ρ → Except TransportError Json → CollectedTree}
    {entry : ρ → Except TransportError Json → Entry}
    (hadd : ∀ t row answer, add t row answer = (entry row answer).addTo t)
    {next : CollectedTree → Inquiry} (hnext : ∀ t, (next t).Grows t) (t : CollectedTree)
    (found : List ρ) : (details path add next t found).Grows t := by
  induction found generalizing t with
  | nil => exact hnext t
  | cons row found ih =>
    refine ⟨.refl t, fun answer => (ih _).of_begins ?_⟩
    rw [hadd]
    exact (entry row answer).begins_addTo t

theorem begins_foldl_addList (t : CollectedTree) (found : List Json) :
    t.Begins (found.foldl addList t) := by
  induction found generalizing t with
  | nil => exact .refl t
  | cons row found ih =>
    rw [List.foldl_cons, addList_eq]
    exact ((listEntry row).begins_addTo t).trans (ih _)

theorem grows_policies (t : CollectedTree) : (askPolicies t).Grows t :=
  grows_listing (grows_details addPolicy_eq Inquiry.Grows.done t)

theorem grows_lists (t : CollectedTree) : (askLists t).Grows t :=
  grows_listing fun found => (grows_policies _).of_begins (begins_foldl_addList t found)

theorem grows_devices (t : CollectedTree) : (askDevices t).Grows t :=
  grows_listing fun _ => grows_details addDevice_eq grows_lists t _

theorem grows_collection (now : Instant) : (collection now).Grows (.empty now) :=
  grows_listing (grows_details addFeature_eq grows_devices _)

/-- Only the last question of a collection can be refused. -/
theorem not_refused_take {now : Instant} {xs : List Exchange} {rest : Inquiry} {count : Nat}
    (h : (collection now).Asks xs rest) (hover : rest.isOver = true) (hlt : count < xs.length) :
    ∀ x ∈ xs.take count, refusal? x = none := by
  intro x hx
  rcases asks_collection h hover with ⟨earlier, last, e, rfl, hnone, -, -⟩ | ⟨i, hi, rfl, -⟩
  · rw [List.length_append, List.length_singleton] at hlt
    rw [List.take_append_of_le_length (Nat.le_of_lt_succ hlt)] at hx
    exact hnone x (List.mem_of_mem_take hx)
  · exact hi.not_refused x (List.mem_of_mem_take hx)

/-- A collection that stops at a question has the beginning of what it would read in the end. -/
theorem begins_of_asks {now : Instant} {path : String} {before full : CollectedTree}
    {next : Except TransportError Json → Inquiry} {xs ys : List Exchange}
    (h : (collection now).Asks xs (.ask path before next))
    (h' : (Inquiry.ask path before next).Asks ys (.done full)) :
    CollectedTree.Begins { before with cancelled := true } full := by
  have hbegins := ((grows_collection now).of_asks h).begins h'
  exact ⟨hbegins.1, hbegins.2, hbegins.3, hbegins.4, hbegins.5, hbegins.6⟩

end Collection

open Collection

/-- A collection that is to stop after some answers asks the first questions of the one that nobody
    stops, that many or all of them, and is answered alike. It fails if one of these is refused.
    Otherwise its tree says that it is incomplete just if some question was left out. Its lists
    are the first entries of the complete ones, and the whole tree is the complete one where
    nothing was left out. -/
theorem collect_stops (m : Manager σ) (now : Instant) (count : Nat) (s : Session σ) :
    let whole := collect m.unstopped now s
    let cut := collect (m.stoppedAfter count) now (s.counting 0)
    ∃ xs, m.unstopped.Leads s xs whole.2 ∧
      (m.stoppedAfter count).Leads (s.counting 0) (xs.take count) cut.2 ∧
      match cut.1 with
      | .error e => (∃ x ∈ xs.take count, refusal? x = some e) ∧ whole.1 = .error e
      | .ok tree => (∀ x ∈ xs.take count, refusal? x = none) ∧
          (tree.cancelled = true ↔ count < xs.length) ∧
          (∀ full, whole.1 = .ok full → tree.Begins full) ∧
          (tree.cancelled = false → whole.1 = .ok tree) := by
  intro whole cut
  obtain ⟨xs, mid, rest, htalk, hwhole, hover, htalk', hcut, hasks, hleft⟩ :=
    (collection now).run_stoppedAfter m count s 0
  rw [Nat.sub_zero] at htalk' hasks hleft
  rw [← collect_eq_run] at htalk hwhole htalk' hcut
  refine ⟨xs, htalk, htalk', ?_⟩
  change whole.1 = rest.outcome at hwhole
  change cut.1 = mid.outcome at hcut
  have hall : (collection now).Asks xs rest := by
    have happend := hasks.append hleft
    rwa [List.take_append_drop] at happend
  by_cases hlength : xs.length ≤ count
  · -- Every question was asked, so both runs are at the same end
    rw [List.drop_of_length_le hlength] at hleft
    obtain rfl := hleft.eq_of_nil
    rw [List.take_of_length_le hlength, hcut, hwhole]
    rcases asks_collection hall hover with ⟨earlier, x, e, rfl, -, hsome, rfl⟩ | ⟨i, hi, rfl, rfl⟩
    · exact ⟨⟨x, List.mem_append_right _ List.mem_cons_self, hsome⟩, rfl⟩
    · refine ⟨hi.not_refused, ⟨nofun, fun h => absurd hlength (Nat.not_le.mpr h)⟩, ?_, fun _ => rfl⟩
      intro full hfull
      obtain rfl := Except.ok.inj hfull
      exact .refl _
  · -- There is a question left, at which the run has stopped
    have hlength := Nat.not_le.mp hlength
    cases mid with
    | done | failed =>
      have hdrop := (hleft.eq_of_isOver rfl).1
      exact absurd (List.drop_eq_nil_iff.mp hdrop) (Nat.not_le.mpr hlength)
    | ask path before next =>
      rw [hcut]
      refine ⟨not_refused_take hall hover hlength, ⟨fun _ => hlength, fun _ => rfl⟩, ?_, nofun⟩
      intro full hfull
      cases rest with
      | ask => cases hover
      | failed e => cases hwhole.symm.trans hfull
      | done tree =>
        obtain rfl := Except.ok.inj (hwhole.symm.trans hfull)
        exact begins_of_asks hasks hleft

end ProfileMigration
