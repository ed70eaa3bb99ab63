/-
  ProfileMigration.Proofs.Build.Turn

  What happens to one queued parcel in a build, its turn:

    Seat / Fate / Turn      -- where a parcel is queued, and what became of it
    Sent                    -- what may become of a parcel that is created at a path
    Turn.Lawful             -- what may happen in a turn, after the turns before it
    Build.Turned            -- a build that goes through one turn
    Build.Runs              -- a build that goes through lawful turns

  Turns say what is asked and what is reported; what holds of a build is read off them.
-/
import ProfileMigration.Build.Draft
import ProfileMigration.Proofs.Manager.Conversation
import ProfileMigration.Proofs.Sequence.Split

namespace ProfileMigration

/-! ## Turns -/

/-- Where a parcel is queued. -/
inductive Seat where
  | alone
  | parent (tag : Tag)
  | child (tag : Tag)
deriving DecidableEq

/-- What became of a queued parcel. -/
inductive Fate where
  /-- It was not sent. -/
  | held (reason : String)
  /-- It was sent, and not created. -/
  | refused (sent : Exchange) (e : TransportError)
  | created (sent : Exchange) (id : Uuid)
  /-- It was created, and then a parent was asked to take it. -/
  | bound (sent : Exchange) (id : Uuid) (binding : Exchange)

namespace Fate

/-- The exchange that was to create the parcel. -/
def creation? : Fate → Option Exchange
  | held _ => none
  | refused sent _ | created sent _ | bound sent _ _ => some sent

/-- The exchange that was to bind the parcel to its parent. -/
def binding? : Fate → Option Exchange
  | bound _ _ binding => some binding
  | held _ | refused .. | created .. => none

/-- The identifier of the parcel, if it was created. -/
def id? : Fate → Option Uuid
  | created _ id | bound _ id _ => some id
  | held _ | refused .. => none

end Fate

/-- The turn of one queued parcel. -/
structure Turn where
  seat : Seat
  parcel : Parcel
  fate : Fate

namespace Turn

/-- The place in the queues that the turn is of. -/
def slot (t : Turn) : Seat × Parcel := (t.seat, t.parcel)

/-- What was asked in the turn, creation first. -/
def exchanges (t : Turn) : List Exchange := t.fate.creation?.toList ++ t.fate.binding?.toList

/-- The entry of the parcel among the failed ones, with the words for it. -/
def failedItem (t : Turn) (error : String) (request response : Option Json) : FailedItem :=
  ⟨t.parcel.name, t.parcel.type, error, request, response⟩

/-- The entry for a failed call. -/
def refusedItem (t : Turn) (e : TransportError) : FailedItem :=
  t.failedItem e.message e.request e.response

/-- The entry among the created parcels. -/
def createdItem? (t : Turn) : Option CreatedItem :=
  t.fate.id?.map fun id => ⟨t.parcel.name, t.parcel.type, id, t.parcel.id⟩

/-- The entry for a parcel that was not created. -/
def creationFailure? (t : Turn) : Option FailedItem :=
  match t.fate with
  | .held reason => some (t.failedItem reason none none)
  | .refused _ e => some (t.refusedItem e)
  | .created .. | .bound .. => none

/-- The entry for a created parcel that its parent did not take. -/
def bindFailure? (t : Turn) : Option FailedItem :=
  t.fate.binding?.bind fun binding => match binding.answer with
    | .ok _ => none
    | .error e => some (t.refusedItem e)

/-- The entries of the turn among the failed parcels. -/
def failedItems (t : Turn) : List FailedItem :=
  t.creationFailure?.toList ++ t.bindFailure?.toList

/-- What the turn adds to the known identifiers. -/
def remember (t : Turn) (ids : RemoteIds) : RemoteIds :=
  match t.fate.id?, t.parcel.id with
  | some id, some origin => ids.assign origin id
  | _, _ => ids

/-- What the turn adds to a report. -/
def record (t : Turn) (r : BuildReport) : BuildReport :=
  { r with
    created := r.created ++ t.createdItem?.toList
    failed := r.failed ++ t.failedItems }

/-- The turn of the first parent with a tag. -/
def parentOf (turns : List Turn) (tag : Tag) : Option Turn :=
  turns.find? (·.seat = .parent tag)

/-- What is known after turns. -/
def known (ids : RemoteIds) (turns : List Turn) : RemoteIds :=
  turns.foldl (fun ids t => t.remember ids) ids

theorem createdItem?_eq_none_iff {t : Turn} : t.createdItem? = none ↔ t.fate.id? = none :=
  Option.map_eq_none_iff

theorem known_append (ids : RemoteIds) (xs ys : List Turn) :
    known ids (xs ++ ys) = known (known ids xs) ys := List.foldl_append

theorem known_snoc (ids : RemoteIds) (turns : List Turn) (t : Turn) :
    known ids (turns ++ [t]) = t.remember (known ids turns) := by
  rw [known_append]
  rfl

theorem parentOf_append (earlier more : List Turn) (tag : Tag) :
    parentOf (earlier ++ more) tag = (parentOf earlier tag).or (parentOf more tag) :=
  List.find?_append

theorem parentOf_append_of_some {turns : List Turn} {tag : Tag} {q : Turn}
    (h : parentOf turns tag = some q) (more : List Turn) :
    parentOf (turns ++ more) tag = some q := by
  rw [parentOf_append, h]
  rfl

theorem parentOf_append_of_none {turns : List Turn} {tag : Tag} (h : parentOf turns tag = none)
    (more : List Turn) : parentOf (turns ++ more) tag = parentOf more tag := by
  rw [parentOf_append, h]
  rfl

theorem of_parentOf_eq_some {turns : List Turn} {tag : Tag} {q : Turn}
    (h : parentOf turns tag = some q) : q ∈ turns ∧ q.seat = .parent tag := by
  rw [parentOf] at h
  have hseat := List.find?_some h
  exact ⟨List.mem_of_find?_eq_some h, of_decide_eq_true hseat⟩

end Turn

/-! ## What may happen in a turn -/

/-- The path of a created parent. -/
def parentPath (base : String) (parent : Parcel) (id : Uuid) : String :=
  Build.pathBelow base parent.type ++ "/" ++ id.text

/-- What may become of a parcel that is created at a path: a parcel with an unknown reference
    is held, any other is sent once, with its references bound. -/
inductive Sent (ids : RemoteIds) (path : String) (p : Parcel) : Fate → Prop
  | unbound {r : Uuid} (h : p.request ids = .error r) :
    Sent ids path p (.held ("reference " ++ r.text ++ " was not created"))
  | failed {body : Json} {e : TransportError} (h : p.request ids = .ok body) :
    Sent ids path p (.refused ⟨.create path body, .error e⟩ e)
  | nameless {body response : Json} (h : p.request ids = .ok body)
    (hid : createdId response = none) :
    Sent ids path p (.refused ⟨.create path body, .ok response⟩
      (.malformed path "no parcel id in response" response))
  | created {body response : Json} {id : Uuid} (h : p.request ids = .ok body)
    (hid : createdId response = some id) :
    Sent ids path p (.created ⟨.create path body, .ok response⟩ id)

/-- What may happen in a turn below a profile, after the turns before it. A child follows the
    fate of its parent, the first one queued under its tag. -/
inductive Turn.Lawful (ids : RemoteIds) (base : String) (earlier : List Turn) : Turn → Prop
  | alone {p : Parcel} {fate : Fate}
    (h : Sent (known ids earlier) (Build.pathBelow base p.type) p fate) :
    Lawful ids base earlier ⟨.alone, p, fate⟩
  | parent {tag : Tag} {p : Parcel} {fate : Fate}
    (h : Sent (known ids earlier) (Build.pathBelow base p.type) p fate) :
    Lawful ids base earlier ⟨.parent tag, p, fate⟩
  | orphan {tag : Tag} {p : Parcel} (hparent : parentOf earlier tag = none) :
    Lawful ids base earlier ⟨.child tag, p, .held "no parent queued under its tag"⟩
  | bereft {tag : Tag} {p : Parcel} {q : Turn} (hparent : parentOf earlier tag = some q)
    (hid : q.fate.id? = none) :
    Lawful ids base earlier
      ⟨.child tag, p, .held ("parent '" ++ q.parcel.name ++ "' was not created")⟩
  | nested {tag : Tag} {p : Parcel} {q : Turn} {id : Uuid} {fate : Fate}
    (hparent : parentOf earlier tag = some q) (hid : q.fate.id? = some id)
    (hmode : p.type.childMode = .nested)
    (h : Sent (known ids earlier)
      (Build.pathBelow (parentPath base q.parcel id) p.type) p fate) :
    Lawful ids base earlier ⟨.child tag, p, fate⟩
  | unbound {tag : Tag} {p : Parcel} {q : Turn} {id : Uuid} {fate : Fate}
    (hparent : parentOf earlier tag = some q) (hid : q.fate.id? = some id)
    (hmode : p.type.childMode = .associate)
    (h : Sent (known ids earlier) (Build.pathBelow base p.type) p fate)
    (hfate : fate.id? = none) :
    Lawful ids base earlier ⟨.child tag, p, fate⟩
  | bound {tag : Tag} {p : Parcel} {q : Turn} {id own : Uuid} {sent binding : Exchange}
    (hparent : parentOf earlier tag = some q) (hid : q.fate.id? = some id)
    (hmode : p.type.childMode = .associate)
    (h : Sent (known ids earlier) (Build.pathBelow base p.type) p (.created sent own))
    (hbinding : binding.call = .create (Build.pathBelow (parentPath base q.parcel id) p.type)
      (.obj [("parcelId", .str own.text)])) :
    Lawful ids base earlier ⟨.child tag, p, .bound sent own binding⟩

namespace Build

variable {σ : Type} {m : Manager σ}

/-! ## One turn -/

/-- A build goes through one turn: it asks what the turn asks, and keeps what the turn adds. -/
structure Turned (m : Manager σ) (b : Build σ) (t : Turn) (b' : Build σ) : Prop where
  talk : m.Leads b.session t.exchanges b'.session
  ids : b'.ids = t.remember b.ids
  report : b'.report = t.record b.report

theorem turned_fail (m : Manager σ) (b : Build σ) (seat : Seat) (p : Parcel) (reason : String) :
    Turned m b ⟨seat, p, .held reason⟩ (b.fail p reason) where
  talk := .refl m b.session
  ids := rfl
  report := by
    simp [fail, BuildReport.withFailed, Turn.record, Turn.createdItem?, Turn.failedItems,
      Turn.creationFailure?, Turn.bindFailure?, Turn.failedItem, Fate.id?, Fate.binding?]

theorem turned_refuse {b : Build σ} {call : Call} {answer : Except TransportError Json}
    {s : Session σ} (h : m.ask call b.session = (answer, s)) (seat : Seat) (p : Parcel)
    (e : TransportError) :
    Turned m b ⟨seat, p, .refused ⟨call, answer⟩ e⟩ (refuse { b with session := s } p e) where
  talk := Manager.leads_of_ask h
  ids := rfl
  report := by
    simp [refuse, BuildReport.withRefused, Turn.record, Turn.createdItem?, Turn.failedItems,
      Turn.creationFailure?, Turn.bindFailure?, Turn.refusedItem, Turn.failedItem, Fate.id?,
      Fate.binding?]

theorem turned_accept {b : Build σ} {call : Call} {answer : Except TransportError Json}
    {s : Session σ} (h : m.ask call b.session = (answer, s)) (seat : Seat) (p : Parcel)
    (id : Uuid) :
    Turned m b ⟨seat, p, .created ⟨call, answer⟩ id⟩ (accept { b with session := s } p id) where
  talk := Manager.leads_of_ask h
  ids := by
    rw [accept, Turn.remember]
    cases p.id with
    | none => rfl
    | some origin => rfl
  report := by
    simp [accept, BuildReport.withCreated, Turn.record, Turn.createdItem?, Turn.failedItems,
      Turn.creationFailure?, Turn.bindFailure?, Fate.id?, Fate.binding?]

/-- A parcel that is created at a path has a turn of its own. -/
theorem turned_create (m : Manager σ) (path : String) (p : Parcel) (b : Build σ) :
    ∃ fate, Sent b.ids path p fate ∧ fate.id? = (b.create m path p).1 ∧
      ∀ seat, Turned m b ⟨seat, p, fate⟩ (b.create m path p).2 := by
  rw [create]
  -- Without a body nothing is asked, and with one the answer decides
  cases hrequest : p.request b.ids with
  | error r => exact ⟨_, .unbound hrequest, rfl, fun seat => turned_fail m b seat p _⟩
  | ok body =>
    dsimp only
    rcases hask : m.ask (.create path body) b.session with ⟨answer, s⟩
    dsimp only
    cases answer with
    | error e => exact ⟨_, .failed hrequest, rfl, fun seat => turned_refuse hask seat p e⟩
    | ok response =>
      dsimp only
      cases hid : createdId response with
      | none =>
        exact ⟨_, .nameless hrequest hid, rfl, fun seat => turned_refuse hask seat p _⟩
      | some id =>
        exact ⟨_, .created hrequest hid, rfl, fun seat => turned_accept hask seat p id⟩

/-- A created parcel that is then offered to a parent still has one turn. -/
theorem turned_associate {b b' : Build σ} {seat : Seat} {p : Parcel} {sent : Exchange} {own : Uuid}
    (h : Turned m b ⟨seat, p, .created sent own⟩ b') (path : String) :
    ∃ binding : Exchange,
      binding.call = .create (pathBelow path p.type) (.obj [("parcelId", .str own.text)]) ∧
        Turned m b ⟨seat, p, .bound sent own binding⟩ (b'.associate m path p own) := by
  rw [associate]
  rcases hask : m.ask (.create (pathBelow path p.type) (.obj [("parcelId", .str own.text)]))
    b'.session with ⟨answer, s⟩
  refine ⟨⟨_, answer⟩, rfl, ?_⟩
  dsimp only
  have htalk := h.talk.trans (Manager.leads_of_ask hask)
  -- The parcel stays created, whether the parent takes it or not
  cases answer with
  | ok _ => exact ⟨htalk, h.ids, h.report⟩
  | error e =>
    refine ⟨htalk, h.ids, ?_⟩
    show b'.report.withRefused p.name p.type e = _
    rw [h.report]
    simp [BuildReport.withRefused, Turn.record, Turn.createdItem?, Turn.failedItems,
      Turn.creationFailure?, Turn.bindFailure?, Turn.refusedItem, Turn.failedItem, Fate.id?,
      Fate.binding?]

/-! ## Turn after turn -/

/-- A build goes from `b₀` to another through lawful turns. -/
inductive Runs (m : Manager σ) (b₀ : Build σ) : List Turn → Build σ → Prop
  | nil : Runs m b₀ [] b₀
  | snoc {turns : List Turn} {b b' : Build σ} {t : Turn} (h : Runs m b₀ turns b)
    (hlawful : t.Lawful b₀.ids b₀.report.profilePath turns) (hturned : Turned m b t b') :
    Runs m b₀ (turns ++ [t]) b'

namespace Runs

variable {b₀ b : Build σ} {turns : List Turn}

theorem talk (h : Runs m b₀ turns b) :
    m.Leads b₀.session (turns.flatMap Turn.exchanges) b.session := by
  induction h with
  | nil => exact .refl m b₀.session
  | snoc _ _ hturned ih =>
    rw [List.flatMap_append, List.flatMap_singleton]
    exact ih.trans hturned.talk

theorem ids (h : Runs m b₀ turns b) : b.ids = Turn.known b₀.ids turns := by
  induction h with
  | nil => rfl
  | snoc _ _ hturned ih => rw [hturned.ids, ih, Turn.known_snoc]

/-- The report lists created and failed parcels by turns. -/
theorem report (h : Runs m b₀ turns b) :
    b.report = { b₀.report with
      created := b₀.report.created ++ turns.filterMap Turn.createdItem?
      failed := b₀.report.failed ++ turns.flatMap Turn.failedItems } := by
  induction h with
  | nil => simp
  | snoc _ _ hturned ih =>
    rw [hturned.report, ih, List.filterMap_append, List.flatMap_append, List.flatMap_singleton]
    simp only [Turn.record, List.append_assoc]
    congr 3

theorem profilePath (h : Runs m b₀ turns b) : b.report.profilePath = b₀.report.profilePath := by
  rw [h.report]
  rfl

theorem lawful (h : Runs m b₀ turns b) {earlier later : List Turn} {t : Turn}
    (ht : turns = earlier ++ t :: later) : t.Lawful b₀.ids b₀.report.profilePath earlier := by
  -- Only the last turn of a run is judged by all turns before it
  induction h generalizing later with
  | nil => simp at ht
  | snoc _ hlawful _ ih =>
    rcases split_of_snoc ht with ⟨rfl, rfl⟩ | ⟨rest, hrest⟩
    · exact hlawful
    · exact ih hrest

/-- The build goes through each turn from the state that the turns before have led to. -/
theorem around (h : Runs m b₀ turns b) {earlier later : List Turn} {t : Turn}
    (ht : turns = earlier ++ t :: later) :
    ∃ now next, Runs m b₀ earlier now ∧ Turned m now t next ∧ Runs m b₀ (earlier ++ [t]) next := by
  induction h generalizing later with
  | nil => simp at ht
  | snoc hruns hlawful hturned ih =>
    rcases split_of_snoc ht with ⟨rfl, rfl⟩ | ⟨rest, hrest⟩
    · exact ⟨_, _, hruns, hturned, hruns.snoc hlawful hturned⟩
    · exact ih hrest

end Runs

end Build

end ProfileMigration
