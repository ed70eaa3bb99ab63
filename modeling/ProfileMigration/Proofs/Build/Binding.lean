/-
  ProfileMigration.Proofs.Build.Binding

  What a build sends refers to created objects only:

    Parcel.firstUnknown         -- the first reference of a parcel without a remote identifier
    Turn.Due                    -- the time to create a parcel has come
    Turn.Binds                  -- what may be sent for a parcel, and what is said otherwise
    Turn.Lawful.binds           -- every lawful turn keeps to it
    Build.InStep                -- a build knows what it began with and what its report says
    Build.Runs.inStep           -- a build never gets out of step with its report
    Draft.build_binds           -- so it is in every build, at every turn

  A build and its report learn of a created parcel together, so that the references of later
  parcels can be judged by the report alone.
-/
import ProfileMigration.Proofs.Build.Reasons

namespace ProfileMigration

/-! ## Parcels and their bodies -/

namespace Parcel

/-- The first object that a parcel refers to and that has no remote identifier. -/
def firstUnknown (p : Parcel) (ids : RemoteIds) : Option Uuid :=
  p.data.objectIds.find? fun id => (ids.get? id).isNone

variable {p : Parcel} {ids : RemoteIds}

/-- A parcel has no body exactly for want of its first unknown reference. -/
theorem request_eq_error_iff {r : Uuid} :
    p.request ids = .error r ↔ p.firstUnknown ids = some r := by
  have hbind := p.data.firstUnbound_bind ids r
  rw [firstUnknown, ← hbind, request]
  cases p.data.bind ids with
  | error e => simp [Except.map]
  | ok data => simp [Except.map]

theorem isSome_firstUnknown {r : Uuid} (hr : r ∈ p.references) (hunknown : ids.get? r = none) :
    (p.firstUnknown ids).isSome := by
  rw [firstUnknown, List.find?_isSome]
  exact ⟨r, List.mem_eraseDups.mp hr, Option.isNone_iff_eq_none.mpr hunknown⟩

/-- The fields of a body refer to no object any more. -/
theorem data_of_request {body : Json} (h : p.request ids = .ok body) :
    ∃ data, p.data.bind ids = .ok data ∧ body.get? "data" = some data.toJson ∧
      data.objectIds = [] := by
  rw [request] at h
  obtain ⟨data, hdata, rfl⟩ := map_eq_ok h
  exact ⟨data, hdata, rfl, FieldMap.objectIds_of_bind hdata⟩

end Parcel

/-! ## Turns -/

namespace Sent

variable {ids : RemoteIds} {path : String} {p : Parcel} {fate : Fate}

/-- A parcel with an unknown reference is held for the first one. -/
theorem eq_held (h : Sent ids path p fate) {r : Uuid} (hr : p.firstUnknown ids = some r) :
    fate = .held (missingText r) := by
  have hrequest := Parcel.request_eq_error_iff.mpr hr
  cases h with
  | unbound h =>
    rw [h] at hrequest
    rw [Except.error.inj hrequest]
    rfl
  | failed h | nameless h _ | created h _ =>
    rw [h] at hrequest
    cases hrequest

/-- Any other parcel is sent. -/
theorem isSome_creation? (h : Sent ids path p fate) (hknown : p.firstUnknown ids = none) :
    fate.creation?.isSome := by
  cases h with
  | unbound h =>
    rw [Parcel.request_eq_error_iff, hknown] at h
    cases h
  | failed _ | nameless _ _ | created _ _ => rfl

end Sent

namespace Turn

/-- The time to create the parcel has come: it is no child, or its parent has been created. -/
def Due (earlier : List Turn) (t : Turn) : Prop :=
  ∀ tag, t.seat = .child tag → ∃ q, parentOf earlier tag = some q ∧ q.fate.id?.isSome

/-- What is sent for a parcel, and what is said if it is not, when these identifiers are
    known. -/
structure Binds (known : RemoteIds) (earlier : List Turn) (t : Turn) : Prop where
  /-- A parcel is sent as its body, in which every reference is bound. -/
  sent : ∀ x, t.fate.creation? = some x → ∃ path body data, x.call = .create path body ∧
    t.parcel.request known = .ok body ∧ t.parcel.data.bind known = .ok data ∧
    body.get? "data" = some data.toJson ∧ data.objectIds = []
  /-- A parcel with an unknown reference is not sent. It is reported, once, and under the first
      such reference if it was due. -/
  unknown : ∀ r ∈ t.parcel.references, known.get? r = none →
    t.exchanges = [] ∧ t.createdItem? = none ∧
      (∃ reason, t.failedItems = [t.failedItem reason none none]) ∧
      (t.Due earlier → ∃ first, t.parcel.firstUnknown known = some first ∧
        t.failedItems = [t.failedItem (missingText first) none none])
  /-- A due parcel that refers to nothing unknown is sent. -/
  due : t.Due earlier → (∀ r ∈ t.parcel.references, known.get? r ≠ none) →
    t.fate.creation?.isSome

variable {ids : RemoteIds} {base : String} {earlier : List Turn} {t : Turn}

/-- Nothing but the report knows of a held parcel. -/
theorem of_held {reason : String} (h : t.fate = .held reason) :
    t.exchanges = [] ∧ t.createdItem? = none ∧
      t.failedItems = [t.failedItem reason none none] := by
  obtain ⟨seat, p, _⟩ := t
  obtain rfl := h
  exact ⟨rfl, rfl, rfl⟩

/-- A due turn creates the parcel somewhere, or creates it and goes on to a binding. -/
theorem Lawful.sent_of_due (h : t.Lawful ids base earlier) (hdue : t.Due earlier) :
    ∃ path fate, Sent (known ids earlier) path t.parcel fate ∧
      (t.fate = fate ∨ ∃ x id binding, fate = .created x id ∧ t.fate = .bound x id binding) := by
  cases h with
  | alone h | parent h | nested _ _ _ h | unbound _ _ _ h _ => exact ⟨_, _, h, .inl rfl⟩
  | bound _ _ _ h _ => exact ⟨_, _, h, .inr ⟨_, _, _, rfl, rfl⟩⟩
  | orphan hnone =>
    obtain ⟨q, hq, -⟩ := hdue _ rfl
    rw [hnone] at hq
    cases hq
  | bereft hsome hnone =>
    obtain ⟨q, hq, hid⟩ := hdue _ rfl
    rw [hsome] at hq
    rw [← Option.some.inj hq, hnone] at hid
    cases hid

/-- A turn that is not due is that of a child that is held for its parent. -/
theorem Lawful.held_of_not_due (h : t.Lawful ids base earlier) (hdue : ¬ t.Due earlier) :
    ∃ reason, t.fate = .held reason := by
  have hchild : ∀ {tag : Tag} {p : Parcel} {fate : Fate} {q : Turn} {id : Uuid},
      parentOf earlier tag = some q → q.fate.id? = some id →
        Due earlier ⟨.child tag, p, fate⟩ := by
    intro tag p fate q id hparent hid tag' hseat
    obtain rfl := Seat.child.inj hseat
    exact ⟨q, hparent, Option.isSome_of_eq_some hid⟩
  cases h with
  | alone _ | parent _ => exact absurd nofun hdue
  | orphan _ | bereft _ _ => exact ⟨_, rfl⟩
  | nested hparent hid _ _ | unbound hparent hid _ _ _ | bound hparent hid _ _ _ =>
    exact absurd (hchild hparent hid) hdue

theorem Lawful.binds (h : t.Lawful ids base earlier) : t.Binds (known ids earlier) earlier where
  sent := by
    intro x hx
    obtain ⟨path, body, hbody, hcall⟩ := h.call_of_creation? hx
    obtain ⟨data, hdata, hfield, hnone⟩ := Parcel.data_of_request hbody
    exact ⟨path, body, data, hcall, hbody, hdata, hfield, hnone⟩
  unknown := by
    intro r hr hunknown
    obtain ⟨first, hfirst⟩ :=
      Option.isSome_iff_exists.mp (Parcel.isSome_firstUnknown hr hunknown)
    by_cases hdue : t.Due earlier
    · -- The parcel would be created now, and is held for the reference
      obtain ⟨path, fate, hsent, hfate⟩ := h.sent_of_due hdue
      have hheld := hsent.eq_held hfirst
      have hthis : t.fate = .held (missingText first) := by
        rcases hfate with hfate | ⟨x, id, binding, hcreated, -⟩
        · rw [hfate, hheld]
        · rw [hheld] at hcreated
          cases hcreated
      obtain ⟨hasked, hcreated, hfailed⟩ := of_held hthis
      exact ⟨hasked, hcreated, ⟨_, hfailed⟩, fun _ => ⟨first, hfirst, hfailed⟩⟩
    · -- It is held in any case
      obtain ⟨reason, hthis⟩ := h.held_of_not_due hdue
      obtain ⟨hasked, hcreated, hfailed⟩ := of_held hthis
      exact ⟨hasked, hcreated, ⟨_, hfailed⟩, fun h => absurd h hdue⟩
  due := by
    intro hdue hknown
    obtain ⟨path, fate, hsent, hfate⟩ := h.sent_of_due hdue
    have hfirst : t.parcel.firstUnknown (known ids earlier) = none := by
      rw [Parcel.firstUnknown, List.find?_eq_none]
      intro r hr hnone
      exact hknown r (List.mem_eraseDups.mpr hr) (Option.isNone_iff_eq_none.mp hnone)
    have hasked := hsent.isSome_creation? hfirst
    rcases hfate with hfate | ⟨x, id, binding, -, hfate⟩
    · rw [hfate]
      exact hasked
    · rw [hfate]
      rfl

end Turn

/-! ## Builds and their reports -/

/-- The known identifiers follow the report of a turn. -/
theorem Turn.overlay_record (t : Turn) (r : BuildReport) (ids : RemoteIds) :
    (t.record r).remoteIds.overlay ids = t.remember (r.remoteIds.overlay ids) := by
  have hcreated : (t.record r).created = r.created ++ t.createdItem?.toList := rfl
  rw [BuildReport.remoteIds, BuildReport.remoteIds, hcreated, Turn.remember, Turn.createdItem?]
  rw [List.filterMap_append, List.reverse_append]
  cases t.fate.id? with
  | none => rfl
  | some id =>
    cases t.parcel.id with
    | none => rfl
    | some origin => rfl

namespace Build

variable {σ : Type} {m : Manager σ}

/-- What a build knows is what it began with, below what its report says was created. -/
def InStep (ids : RemoteIds) (b : Build σ) : Prop := b.ids = b.report.remoteIds.overlay ids

/-- A turn adds to the build what it adds to the report. -/
theorem Turned.inStep {b b' : Build σ} {t : Turn} {ids : RemoteIds} (h : Turned m b t b')
    (hstep : b.InStep ids) : b'.InStep ids := by
  rw [InStep, h.ids, h.report, t.overlay_record, ← hstep]

theorem Runs.inStep {b₀ b : Build σ} {turns : List Turn} {ids : RemoteIds}
    (h : Runs m b₀ turns b) (hstep : b₀.InStep ids) : b.InStep ids := by
  induction h with
  | nil => exact hstep
  | snoc _ _ hturned ih => exact hturned.inStep ih

end Build

/-! ## Every build -/

/-- A build begins in step with its report and stays so through every turn. At each turn the
    parcel is sent with its references bound by what the report has so far, over what was known
    beforehand, or it is not sent, and the report says why. -/
theorem Draft.build_binds {σ : Type} (m : Manager σ) (d : Draft) (header : ProfileHeader)
    (s : Session σ) :
    let result := build m { d with header := some header } s
    ∃ opening opened, opening.call = d.openingCall header ∧ m.Leads s [opening] opened ∧
      match opening.id? with
      | none => ∃ e, result = (.error (.transport e), opened)
      | some id => ∃ turns b,
        let start : Build σ := ⟨opened, d.remoteIds, .start header.name d.type id⟩
        result = (.ok b.report, b.session) ∧ Build.Runs m start turns b ∧
        Account d b.report.profilePath turns b.report ∧ b.InStep d.remoteIds ∧
        ∀ earlier t later, turns = earlier ++ t :: later → ∃ now next,
          Build.Runs m start earlier now ∧ Build.Turned m now t next ∧
          now.report.created = earlier.filterMap Turn.createdItem? ∧
          now.InStep d.remoteIds ∧ next.InStep d.remoteIds ∧
          t.Binds (now.report.remoteIds.overlay d.remoteIds) earlier := by
  obtain ⟨opening, opened, hcall, hopen, hcases⟩ := d.build_runs m header s
  refine ⟨opening, opened, hcall, hopen, ?_⟩
  cases hid : opening.id? with
  | none =>
    rw [hid] at hcases
    exact hcases
  | some id =>
    rw [hid] at hcases
    obtain ⟨turns, b, hschedule, hruns, hbuild⟩ := hcases
    have hstart : Build.InStep d.remoteIds
      (⟨opened, d.remoteIds, .start header.name d.type id⟩ : Build σ) := rfl
    refine ⟨turns, b, hbuild, hruns, account_of_runs hschedule hruns, hruns.inStep hstart, ?_⟩
    intro earlier t later hsplit
    obtain ⟨now, next, hnow, hturned, -⟩ := hruns.around hsplit
    have hstep := hnow.inStep hstart
    refine ⟨now, next, hnow, hturned, ?_, hstep, hturned.inStep hstep, ?_⟩
    · rw [hnow.report]
      rfl
    · -- What is known now is what the turns before have left
      rw [← hstep, hnow.ids]
      exact (hruns.lawful hsplit).binds

end ProfileMigration
