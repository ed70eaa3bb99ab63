/-
  ProfileMigration.Proofs.Build.Replay

  Builds against a manager whose answers depend on the call alone:

    Manager.AnswersBy       -- every answer is a function of the call
    Fate.ofSending          -- what then becomes of a parcel that is created at a path
    Turn.ofSlot             -- the turn of a queued parcel, after the turns before it
    Turn.replay             -- the turns of queued parcels, one after the other
    Turn.Lawful.eq_ofSlot   -- lawful turns are these, whatever the state of the manager
    Build.Runs.eq_replay    -- so the turns of a build are a function of its schedule
    Turn.replay_congr       -- of the turns before, only created parcels count
-/
import ProfileMigration.Proofs.Build.Reasons

namespace ProfileMigration

/-- The manager answers every call as a function says, whatever was asked before. -/
def Manager.AnswersBy {σ : Type} (m : Manager σ) (f : Call → Except TransportError Json) : Prop :=
  ∀ call state, (m.answer call state).1 = f call

variable {f : Call → Except TransportError Json} {ids : RemoteIds} {base : String}

/-! ## One parcel -/

namespace Fate

/-- What becomes of a parcel that is created at a path. -/
def ofSending (f : Call → Except TransportError Json) (ids : RemoteIds) (path : String)
    (p : Parcel) : Fate :=
  match p.request ids with
  | .error r => .held (missingText r)
  | .ok body =>
    match f (.create path body) with
    | .error e => .refused ⟨.create path body, .error e⟩ e
    | .ok response =>
      match createdId response with
      | none =>
        .refused ⟨.create path body, .ok response⟩
          (.malformed path "no parcel id in response" response)
      | some id => .created ⟨.create path body, .ok response⟩ id

/-- A parent is asked to take the parcel, if it was created. -/
def thenBound (f : Call → Except TransportError Json) (parentPath : String) (p : Parcel) :
    Fate → Fate
  | .created sent own =>
    let call := .create (Build.pathBelow parentPath p.type) (.obj [("parcelId", .str own.text)])
    .bound sent own ⟨call, f call⟩
  | fate => fate

end Fate

theorem Sent.eq_ofSending {path : String} {p : Parcel} {fate : Fate} (h : Sent ids path p fate)
    (hf : ∀ x, fate.creation? = some x → f x.call = x.answer) :
    fate = Fate.ofSending f ids path p := by
  cases h with
  | unbound hrequest =>
    rw [Fate.ofSending, hrequest]
    rfl
  | failed hrequest =>
    have hanswer := hf _ rfl
    simp only [Fate.ofSending, hrequest, hanswer]
  | nameless hrequest hid | created hrequest hid =>
    have hanswer := hf _ rfl
    simp only [Fate.ofSending, hrequest, hanswer, hid]

/-! ## One turn -/

namespace Turn

/-- The turn of a queued parcel, after the turns before it. -/
def ofSlot (f : Call → Except TransportError Json) (ids : RemoteIds) (base : String)
    (earlier : List Turn) : Seat × Parcel → Turn
  | (.child tag, p) =>
    ⟨.child tag, p,
      match parentOf earlier tag with
      | none => .held "no parent queued under its tag"
      | some q =>
        match q.fate.id? with
        | none => .held ("parent '" ++ q.parcel.name ++ "' was not created")
        | some id =>
          let path := parentPath base q.parcel id
          match p.type.childMode with
          | .nested => .ofSending f (known ids earlier) (Build.pathBelow path p.type) p
          | .associate =>
            Fate.thenBound f path p
              (.ofSending f (known ids earlier) (Build.pathBelow base p.type) p)⟩
  | (seat, p) => ⟨seat, p, .ofSending f (known ids earlier) (Build.pathBelow base p.type) p⟩

/-- A lawful turn is determined by its place, what the turns before it created, and the answers
    to its calls. -/
theorem Lawful.eq_ofSlot {earlier : List Turn} {t : Turn} (h : t.Lawful ids base earlier)
    (hf : ∀ x ∈ t.exchanges, f x.call = x.answer) : t = ofSlot f ids base earlier t.slot := by
  have hsent : ∀ x, t.fate.creation? = some x → f x.call = x.answer := fun x hx =>
    hf x (List.mem_append_left _ (Option.mem_toList.mpr hx))
  cases h with
  | alone h | parent h =>
    rw [slot, ofSlot, h.eq_ofSending hsent]
    all_goals nofun
  | orphan hparent =>
    rw [slot, ofSlot, hparent]
  | bereft hparent hid =>
    simp only [slot, ofSlot, hparent, hid]
  | nested hparent hid hmode h =>
    simp only [slot, ofSlot, hparent, hid, hmode, ← h.eq_ofSending hsent]
  | unbound hparent hid hmode h hfate =>
    simp only [slot, ofSlot, hparent, hid, hmode, ← h.eq_ofSending hsent]
    -- A parcel that was not created is not offered to the parent
    cases h with
    | unbound _ | failed _ | nameless _ _ => rfl
    | created _ _ => cases hfate
  | @bound _ _ _ _ _ _ binding hparent hid hmode h hbinding =>
    have hcreated := h.eq_ofSending fun x hx => hsent x hx
    simp only [slot, ofSlot, hparent, hid, hmode, ← hcreated, Fate.thenBound]
    have hanswer : f binding.call = binding.answer :=
      hf binding (List.mem_append_right _ (List.mem_singleton.mpr rfl))
    rw [← hbinding, hanswer]

/-- Two histories give a queued parcel the same turn if they know the same objects and have the
    same parent for it. -/
theorem ofSlot_congr {earlier earlier' : List Turn} {slot : Seat × Parcel}
    (hknown : known ids earlier = known ids earlier')
    (hparent : ∀ tag, slot.1 = .child tag → parentOf earlier tag = parentOf earlier' tag) :
    ofSlot f ids base earlier slot = ofSlot f ids base earlier' slot := by
  obtain ⟨seat, p⟩ := slot
  cases seat with
  | alone | parent _ =>
    rw [ofSlot, ofSlot, hknown]
    all_goals nofun
  | child tag =>
    rw [ofSlot, ofSlot, hknown, hparent tag rfl]

/-! ## Turn after turn -/

/-- The turns of queued parcels, one after the other. -/
def replay (f : Call → Except TransportError Json) (ids : RemoteIds) (base : String) :
    List Turn → List (Seat × Parcel) → List Turn
  | _, [] => []
  | earlier, slot :: rest =>
    let t := ofSlot f ids base earlier slot
    t :: replay f ids base (earlier ++ [t]) rest

theorem slot_ofSlot (earlier : List Turn) (slot : Seat × Parcel) :
    (ofSlot f ids base earlier slot).slot = slot := by
  obtain ⟨seat, p⟩ := slot
  cases seat with
  | alone | parent _ | child _ => rfl

theorem map_slot_replay (earlier : List Turn) (slots : List (Seat × Parcel)) :
    (replay f ids base earlier slots).map slot = slots := by
  induction slots generalizing earlier with
  | nil => rfl
  | cons head rest ih =>
    rw [replay, List.map_cons, ih, slot_ofSlot]

theorem replay_append (earlier : List Turn) (xs ys : List (Seat × Parcel)) :
    replay f ids base earlier (xs ++ ys) = replay f ids base earlier xs ++
      replay f ids base (earlier ++ replay f ids base earlier xs) ys := by
  induction xs generalizing earlier with
  | nil =>
    rw [List.nil_append, replay, List.nil_append, List.append_nil]
  | cons slot xs ih =>
    rw [List.cons_append, replay, replay, ih, List.cons_append, List.append_assoc]
    rfl

/-- Of the turns before, only what they created and the parents of later children count. -/
theorem replay_congr {earlier earlier' : List Turn} {slots : List (Seat × Parcel)}
    (hknown : known ids earlier = known ids earlier')
    (hparent : ∀ slot ∈ slots, ∀ tag, slot.1 = .child tag →
      parentOf earlier tag = parentOf earlier' tag) :
    replay f ids base earlier slots = replay f ids base earlier' slots := by
  induction slots generalizing earlier earlier' with
  | nil => rfl
  | cons slot rest ih =>
    obtain ⟨hfirst, hrest⟩ := List.forall_mem_cons.mp hparent
    have hturn : ofSlot f ids base earlier slot = ofSlot f ids base earlier' slot :=
      ofSlot_congr hknown hfirst
    rw [replay, replay, hturn]
    -- Both histories grow by the same turn
    refine congrArg (_ :: ·) (ih ?_ ?_)
    · rw [known_snoc, known_snoc, hknown]
    · intro later hlater tag htag
      rw [parentOf_append, parentOf_append, hrest later hlater tag htag]

end Turn

/-- The turns of a build are a function of its schedule. -/
theorem Build.Runs.eq_replay {σ : Type} {m : Manager σ} {b₀ b : Build σ} {turns : List Turn}
    (h : Runs m b₀ turns b) (hm : m.AnswersBy f) :
    turns = Turn.replay f b₀.ids b₀.report.profilePath [] (turns.map Turn.slot) := by
  induction h with
  | nil => rfl
  | @snoc turns _ _ t hruns hlawful hturned ih =>
    have hanswered : ∀ x ∈ t.exchanges, f x.call = x.answer := by
      intro x hx
      obtain ⟨state, hanswer⟩ := hturned.talk.answers.answer_of_mem hx
      rw [← hm x.call state, hanswer]
    rw [List.map_append, Turn.replay_append, ← ih, List.nil_append]
    rw [List.map_singleton, Turn.replay, Turn.replay, ← hlawful.eq_ofSlot hanswered]

end ProfileMigration
