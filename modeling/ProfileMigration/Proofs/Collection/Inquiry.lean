/-
  ProfileMigration.Proofs.Collection.Inquiry

  Reading the legacy configuration as a tree of questions:

    Inquiry                 -- done, failed, or one more path to read and what follows each answer
    Inquiry.run             -- puts the questions to a manager, until the run is to stop
    collection              -- the questions that read everything
    Collection.finish       -- a part of a collection, and how the collection goes on after it
    Collection.finish_bind  -- of two parts the second one belongs to how it goes on
    collect_eq_run          -- a collection puts its questions to the manager

  Every question carries what has been read before it; that is the result if the run stops there.
  A collection looks more often whether to stop than it has questions. But where it does, either
  a question follows at once or nothing changes up to the next one.
-/
import ProfileMigration.Collection.Reading

namespace ProfileMigration

/-- Questions to a manager, each depending on the answers before it. -/
inductive Inquiry where
  /-- Everything has been read. -/
  | done (tree : CollectedTree)
  /-- Reading cannot go on. -/
  | failed (e : TransportError)
  /-- A path to read, what has been read before, and what follows each answer. -/
  | ask (path : String) (before : CollectedTree) (next : Except TransportError Json → Inquiry)

namespace Inquiry

variable {σ : Type}

/-- Puts the questions to a manager. Asked to stop, it puts no further question, and marks
    what it has read as incomplete. -/
def run (m : Manager σ) : Inquiry → Session σ → Except TransportError CollectedTree × Session σ
  | done tree, s => (.ok tree, s)
  | failed e, s => (.error e, s)
  | ask path before next, s =>
    if m.stopped s.state then (.ok { before with cancelled := true }, s)
    else
      let (answer, s) := m.ask (.read path) s
      run m (next answer) s

end Inquiry

namespace Collection

/-! ## Questions -/

/-- Asks for a list and goes on with its rows. -/
def listing {α : Type} (path : String) (row : Wire.Reader α) (tree : CollectedTree)
    (next : List α → Inquiry) : Inquiry :=
  .ask path tree fun answer =>
    match answer.bind (decode (rows row) path) with
    | .error e => .failed e
    | .ok found => next found

/-- Asks for the detail of each row, one after the other. -/
def details {α : Type} (path : α → String)
    (add : CollectedTree → α → Except TransportError Json → CollectedTree)
    (next : CollectedTree → Inquiry) : CollectedTree → List α → Inquiry
  | tree, [] => next tree
  | tree, row :: rest =>
    .ask (path row) tree fun answer => details path add next (add tree row answer) rest

/-- Reads the route policies, the last part. -/
def askPolicies (tree : CollectedTree) : Inquiry :=
  listing routePolicies policyDefinition tree (details policyPath addPolicy .done tree)

/-- Reads the policy lists and what comes after them. -/
def askLists (tree : CollectedTree) : Inquiry :=
  listing policyLists Wire.json tree fun found => askPolicies (found.foldl addList tree)

/-- Reads the device templates and what comes after them. -/
def askDevices (tree : CollectedTree) : Inquiry :=
  listing deviceTemplates deviceTemplate tree fun found =>
    details devicePath addDevice askLists tree (found.filter fun row => !row.isFile)

/-- Reads everything. -/
def askFeatures (tree : CollectedTree) : Inquiry :=
  listing featureTemplates featureTemplate tree (details featurePath addFeature askDevices tree)

end Collection

/-- The questions that read everything. -/
def collection (now : Instant) : Inquiry := Collection.askFeatures (.empty now)

namespace Collection

/-! ## Parts of a collection -/

variable {σ α β : Type}

/-- A part of a collection in a session, and then the rest of the collection. -/
def finish (part : Reading σ α)
    (rest : α → Session σ → Except TransportError CollectedTree × Session σ) (s : Session σ) :
    Except TransportError CollectedTree × Session σ :=
  match part.run.run s with
  | (.ok a, s) => rest a s
  | (.error ending, s) => (ending, s)

variable {m : Manager σ} {tree : CollectedTree} {s : Session σ}
  {rest : β → Session σ → Except TransportError CollectedTree × Session σ}

theorem finish_bind (part : Reading σ α) (next : α → Reading σ β) :
    finish (part >>= next) rest s = finish part (fun a => finish (next a) rest) s := by
  have hbind : (part >>= next).run.run s =
      (ExceptT.bindCont next (part.run.run s).1).run (part.run.run s).2 := rfl
  rw [finish, finish, hbind]
  cases part.run.run s with
  | mk ended s' =>
    cases ended with
    | ok a => rfl
    | error ending => rfl

theorem finish_check (rest : Unit → Session σ → Except TransportError CollectedTree × Session σ) :
    finish (check m tree) rest s =
      if m.stopped s.state then (.ok { tree with cancelled := true }, s) else rest () s := by
  have hget : finish (check m tree) rest s =
      finish (if m.stopped s.state then throw (.ok { tree with cancelled := true }) else pure ())
        rest s := rfl
  rw [hget]
  split
  · rfl
  · rfl

theorem finish_read {path : String}
    (rest : Except TransportError Json → Session σ →
      Except TransportError CollectedTree × Session σ) :
    finish (read m path) rest s = rest (m.ask (.read path) s).1 (m.ask (.read path) s).2 := rfl

theorem finish_listed {path : String} {row : Wire.Reader α}
    (rest : List α → Session σ → Except TransportError CollectedTree × Session σ) :
    finish (listed m path row) rest s =
      match (m.ask (.read path) s).1.bind (decode (rows row) path) with
      | .ok found => rest found (m.ask (.read path) s).2
      | .error e => (.error e, (m.ask (.read path) s).2) := by
  rw [listed, finish_bind, finish_read]
  cases (m.ask (.read path) s).1.bind (decode (rows row) path) with
  | ok found => rfl
  | error e => rfl

/-! ## Parts and their questions -/

/-- An inquiry that stops with this tree wherever it is to stop at its beginning. -/
def Opens (next : CollectedTree → Inquiry) (m : Manager σ) : Prop :=
  ∀ tree s, m.stopped s.state = true →
    (next tree).run m s = (.ok { tree with cancelled := true }, s)

theorem opens_listing {path : String} {row : Wire.Reader α}
    {next : CollectedTree → List α → Inquiry} :
    Opens (fun tree => listing path row tree (next tree)) m :=
  fun _ _ hstop => if_pos hstop

theorem Opens.details {path : α → String}
    {add : CollectedTree → α → Except TransportError Json → CollectedTree}
    {next : CollectedTree → Inquiry} (h : Opens next m) (found : List α) :
    Opens (fun tree => Collection.details path add next tree found) m := by
  cases found with
  | nil => exact h
  | cons row found => exact fun _ _ hstop => if_pos hstop

/-- A list is asked for, and what follows has the questions that follow. -/
theorem finish_listing {path : String} {row : Wire.Reader α} {next : List α → Inquiry}
    {part : List α → Reading σ β}
    (hnext : ∀ found s, finish (part found) rest s = (next found).run m s) (s : Session σ) :
    finish (do check m tree; part (← listed m path row)) rest s =
      (listing path row tree next).run m s := by
  rw [finish_bind, finish_check, listing, Inquiry.run]
  by_cases hstop : m.stopped s.state = true
  · rw [if_pos hstop, if_pos hstop]
  · rw [if_neg hstop, if_neg hstop, finish_bind, finish_listed]
    dsimp only
    cases (m.ask (.read path) s).1.bind (decode (rows row) path) with
    | ok found => exact hnext found _
    | error e => rfl

section

variable {path : α → String} {passed : α → Bool}
  {add : CollectedTree → α → Except TransportError Json → CollectedTree}
  {next : CollectedTree → Inquiry}
  {last : CollectedTree → Session σ → Except TransportError CollectedTree × Session σ}

/-- The details of rows are asked for in order. A collection that stops at a row that is passed
    over stops with the tree that the next question carries. -/
theorem finish_details (hopens : ∀ row, passed row = true → Opens next m)
    (hnext : ∀ tree s, last tree s = (next tree).run m s) (found : List α)
    (tree : CollectedTree) (s : Session σ) :
    finish (List.foldlM (fun tree row => detail m tree path passed add row) tree found) last s =
      (details path add next tree (found.filter fun row => !passed row)).run m s := by
  induction found generalizing tree s with
  | nil => exact hnext tree s
  | cons row found ih =>
    rw [List.foldlM_cons, finish_bind, detail, finish_bind, finish_check]
    by_cases hpassed : passed row = true
    · rw [List.filter_cons_of_neg (by simp [hpassed])]
      by_cases hstop : m.stopped s.state = true
      · rw [if_pos hstop]
        exact ((hopens row hpassed).details _ tree s hstop).symm
      · rw [if_neg hstop, if_pos hpassed]
        exact ih tree s
    · rw [List.filter_cons_of_pos (by simp [hpassed]), details, Inquiry.run]
      by_cases hstop : m.stopped s.state = true
      · rw [if_pos hstop, if_pos hstop]
      · rw [if_neg hstop, if_neg hstop, if_neg hpassed, finish_bind, finish_read]
        exact ih _ _

theorem finish_detailed {list : String} {row : Wire.Reader α}
    (hopens : ∀ row, passed row = true → Opens next m)
    (hnext : ∀ tree s, last tree s = (next tree).run m s) (s : Session σ) :
    finish (detailed m tree list row path passed add) last s =
      (listing list row tree fun found =>
        details path add next tree (found.filter fun row => !passed row)).run m s :=
  finish_listing (fun found s => finish_details hopens hnext found tree s) s

end

/-! ## The whole collection -/

/-- Nothing is filtered out where no row is passed over. -/
theorem filter_not_false (found : List α) : (found.filter fun _ => !false) = found :=
  List.filter_eq_self.mpr fun _ _ => rfl

theorem finish_policies (s : Session σ) :
    finish (policies m tree) (fun tree s => (.ok tree, s)) s = (askPolicies tree).run m s := by
  have hlast : ∀ (tree : CollectedTree) (s : Session σ),
      ((.ok tree, s) : Except TransportError CollectedTree × Session σ) =
        (Inquiry.done tree).run m s := fun _ _ => rfl
  rw [policies, finish_detailed nofun hlast]
  simp only [filter_not_false]
  rfl

theorem finish_lists (s : Session σ) :
    finish (lists m tree) (fun tree s => (askPolicies tree).run m s) s =
      (askLists tree).run m s :=
  finish_listing (fun _ _ => rfl) s

theorem finish_devices (s : Session σ) :
    finish (devices m tree) (fun tree s => (askLists tree).run m s) s =
      (askDevices tree).run m s :=
  finish_detailed (fun _ _ => opens_listing) (fun _ _ => rfl) s

theorem finish_features (s : Session σ) :
    finish (features m tree) (fun tree s => (askDevices tree).run m s) s =
      (askFeatures tree).run m s := by
  rw [features, finish_detailed nofun fun _ _ => rfl]
  simp only [filter_not_false]
  rfl

end Collection

open Collection

/-- A collection puts its questions to the manager, and looks whether to stop often enough. -/
theorem collect_eq_run {σ : Type} (m : Manager σ) (now : Instant) (s : Session σ) :
    collect m now s = (collection now).run m s := by
  have hfinish : collect m now s =
      finish (everything m (.empty now)) (fun tree s => (.ok tree, s)) s := by
    rw [collect, finish]
    rcases (everything m (.empty now)).run.run s with ⟨_ | _, _⟩
    · rfl
    · rfl
  rw [hfinish, everything, finish_bind, collection, ← finish_features]
  congr 1
  funext tree s
  rw [finish_bind, ← finish_devices]
  congr 1
  funext tree s
  rw [finish_bind, ← finish_lists]
  congr 1
  funext tree s
  exact finish_policies s

end ProfileMigration
