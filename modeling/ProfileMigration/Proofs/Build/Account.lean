/-
  ProfileMigration.Proofs.Build.Account

  What a build does for the parcels of a draft, and what it says about them:

    Turn.length_items           -- entries of reports against turns
    Turn.known_eq_overlay       -- known identifiers against reports
    Turn.Lawful.binding_iff     -- who is bound to a parent
    Turn.Lawful.gate            -- nothing is asked for a child before its parent is there
    Account                     -- calls and reports of a build that is accounted for
    Draft.build_account         -- every build of a named draft is, whatever the manager does
-/
import ProfileMigration.Proofs.Build.Schedule

namespace ProfileMigration

/-! ## Turns and entries -/

namespace Turn

/-- A parcel is created, or it is not, and the report says which. -/
theorem isSome_createdItem? (t : Turn) :
    t.createdItem?.isSome = !t.creationFailure?.isSome := by
  obtain ⟨seat, p, fate⟩ := t
  cases fate <;> rfl

/-- There is one entry for each turn, and one more for each binding that failed. -/
theorem length_items (turns : List Turn) :
    (turns.filterMap createdItem?).length + (turns.flatMap failedItems).length =
      turns.length + (turns.filterMap bindFailure?).length := by
  induction turns with
  | nil => rfl
  | cons t turns ih =>
    -- One entry is for the creation, and a second one only for a binding
    have hone : t.createdItem?.toList.length + t.creationFailure?.toList.length = 1 := by
      obtain ⟨seat, p, fate⟩ := t
      cases fate <;> rfl
    have hcons : ∀ {α : Type} (f : Turn → Option α),
        ((t :: turns).filterMap f).length = (f t).toList.length + (turns.filterMap f).length := by
      intro α f
      rw [List.filterMap_cons]
      cases f t with
      | none => exact (Nat.zero_add _).symm
      | some _ => exact Nat.add_comm _ _
    have hfailed : (failedItems t).length =
        t.creationFailure?.toList.length + t.bindFailure?.toList.length := List.length_append
    rw [hcons, hcons, List.flatMap_cons, List.length_append, List.length_cons, hfailed]
    omega

/-- The known identifiers are the older ones below those of the created parcels. -/
theorem known_eq_overlay (ids : RemoteIds) {turns : List Turn} {report : BuildReport}
    (hcreated : report.created = turns.filterMap createdItem?) :
    known ids turns = report.remoteIds.overlay ids := by
  rw [BuildReport.remoteIds, RemoteIds.overlay]
  rw [hcreated]
  -- The induction is on the turns, of which the report has all
  clear hcreated
  induction turns generalizing ids with
  | nil => rfl
  | cons t turns ih =>
    have hknown : known ids (t :: turns) = known (t.remember ids) turns := rfl
    rw [hknown, ih, List.filterMap_cons, remember, createdItem?]
    cases t.fate.id? with
    | none => rfl
    | some id =>
      cases t.parcel.id with
      | none => simp
      | some origin => simp [RemoteIds.assign]

/-- An object is unknown after turns if it was before and no turn created it. -/
theorem get?_known_eq_none_iff {ids : RemoteIds} {turns : List Turn} {origin : Uuid} :
    (known ids turns).get? origin = none ↔ ids.get? origin = none ∧
      ∀ t ∈ turns, t.parcel.id = some origin → t.fate.id? = none := by
  induction turns generalizing ids with
  | nil => exact ⟨fun h => ⟨h, fun _ ht => absurd ht List.not_mem_nil⟩, And.left⟩
  | cons t turns ih =>
    have hknown : known ids (t :: turns) = known (t.remember ids) turns := rfl
    have hone : (t.remember ids).get? origin = none ↔
        ids.get? origin = none ∧ (t.parcel.id = some origin → t.fate.id? = none) := by
      rw [remember]
      cases t.fate.id? with
      | none => simp
      | some id =>
        cases t.parcel.id with
        | none => simp
        | some own =>
          by_cases hown : origin = own
          · simp [hown, RemoteIds.get?, RemoteIds.assign]
          · -- The new entry only hides older ones of its own object
            have hbeq : (origin == own) = false := beq_eq_false_iff_ne.mpr hown
            dsimp only
            rw [RemoteIds.get?, RemoteIds.assign, List.lookup_cons, hbeq]
            exact ⟨fun h => ⟨h, fun he => absurd (Option.some.inj he).symm hown⟩, And.left⟩
    rw [hknown, ih, hone, List.forall_mem_cons, and_assoc]

end Turn

namespace Sent

variable {ids : RemoteIds} {path : String} {p : Parcel} {fate : Fate}

theorem binding?_eq_none (h : Sent ids path p fate) : fate.binding? = none := by
  cases h <;> rfl

/-- What is sent creates the parcel, with its references bound. -/
theorem call_of_creation? (h : Sent ids path p fate) {x : Exchange}
    (hx : fate.creation? = some x) :
    ∃ body, p.request ids = .ok body ∧ x.call = .create path body := by
  cases h with
  | unbound _ => cases hx
  | failed hbody | nameless hbody _ | created hbody _ =>
    obtain rfl := Option.some.inj hx
    exact ⟨_, hbody, rfl⟩

/-- A created parcel has the identifier that the answer gave. -/
theorem id?_eq (h : Sent ids path p fate) : fate.id? = fate.creation?.bind Exchange.id? := by
  cases h with
  | unbound _ | failed _ => rfl
  | nameless _ hid | created _ hid => exact hid.symm

end Sent

namespace Turn.Lawful

variable {ids : RemoteIds} {base : String} {earlier : List Turn} {t : Turn}

/-- What is sent first in a turn creates its parcel. -/
theorem call_of_creation? (h : t.Lawful ids base earlier) {x : Exchange}
    (hx : t.fate.creation? = some x) :
    ∃ path body, t.parcel.request (known ids earlier) = .ok body ∧
      x.call = .create path body := by
  cases h with
  | alone h | parent h | nested _ _ _ h | unbound _ _ _ h _ =>
    exact ⟨_, h.call_of_creation? hx⟩
  | orphan _ | bereft _ _ => cases hx
  | bound _ _ _ h _ => exact ⟨_, h.call_of_creation? hx⟩

theorem id?_eq (h : t.Lawful ids base earlier) :
    t.fate.id? = t.fate.creation?.bind Exchange.id? := by
  cases h with
  | alone h | parent h | nested _ _ _ h | unbound _ _ _ h _ => exact h.id?_eq
  | orphan _ | bereft _ _ => rfl
  | bound _ _ _ h _ => exact h.id?_eq

/-- A parent is asked to take exactly the children that are created outside it. -/
theorem binding_iff (h : t.Lawful ids base earlier) :
    t.fate.binding?.isSome ↔ (∃ tag, t.seat = .child tag) ∧
      t.parcel.type.childMode = .associate ∧ t.fate.id?.isSome := by
  cases h with
  | alone h | parent h =>
    rw [h.binding?_eq_none]
    simp
  | orphan _ | bereft _ _ => simp [Fate.binding?, Fate.id?]
  | nested _ _ hmode h =>
    rw [h.binding?_eq_none]
    simp [hmode]
  | unbound _ _ _ h hfate =>
    rw [h.binding?_eq_none]
    simp [hfate]
  | bound _ _ hmode _ _ => simp [Fate.binding?, Fate.id?, hmode]

/-- Nothing is asked for a child unless its parent has been created before. -/
theorem gate (h : t.Lawful ids base earlier) {tag : Tag} (hseat : t.seat = .child tag)
    (hasked : t.exchanges ≠ []) :
    ∃ q, parentOf earlier tag = some q ∧ q.fate.id?.isSome := by
  cases h with
  | alone _ | parent _ => cases hseat
  | orphan _ | bereft _ _ => exact absurd rfl hasked
  | nested hparent hid _ _ | unbound hparent hid _ _ _ | bound hparent hid _ _ _ =>
    obtain rfl := Seat.child.inj hseat
    exact ⟨_, hparent, Option.isSome_of_eq_some hid⟩

end Turn.Lawful

/-! ## The account of a build -/

/-- Calls and reports of a build that is accounted for by turns, below a profile. -/
structure Account (d : Draft) (base : String) (turns : List Turn) (report : BuildReport) :
    Prop where
  /-- Every queued parcel has one turn. -/
  queued : (turns.map Turn.slot).Perm d.queue
  /-- Parcels on their own come before parents and children. -/
  alone_first : ∃ first rest, turns = first ++ rest ∧
    first.map Turn.slot = d.parcels.map (.alone, ·) ∧ ∀ t ∈ rest, t.seat ≠ .alone
  /-- Created and failed parcels are reported turn by turn. -/
  created : report.created = turns.filterMap Turn.createdItem?
  failed : report.failed = turns.flatMap Turn.failedItems
  /-- A turn has one entry that says whether the parcel was created. -/
  one_outcome : ∀ t ∈ turns, t.createdItem?.isSome = !t.creationFailure?.isSome
  /-- It has another one exactly for a child whose binding failed after its creation. -/
  bind_failure : ∀ t ∈ turns, t.bindFailure?.isSome ↔
    (∃ tag, t.seat = .child tag) ∧ t.parcel.type.childMode = .associate ∧
      t.createdItem?.isSome ∧ ∃ x e, t.fate.binding? = some x ∧ x.answer = .error e
  balance : report.created.length + report.failed.length =
    d.queue.length + (turns.filterMap Turn.bindFailure?).length
  /-- A turn begins with the creation of its parcel, whose answer decides whether the parcel
      was created; references are bound by what was created before. -/
  creation : ∀ earlier t later, turns = earlier ++ t :: later →
    t.createdItem?.isSome = (t.fate.creation?.bind Exchange.id?).isSome ∧
      ∀ x, t.fate.creation? = some x → ∃ path body,
        t.parcel.request (Turn.known d.remoteIds earlier) = .ok body ∧ x.call = .create path body
  /-- It goes on with a binding exactly for a child that was created outside its parent. -/
  binding : ∀ t ∈ turns, t.fate.binding?.isSome ↔
    (∃ tag, t.seat = .child tag) ∧ t.parcel.type.childMode = .associate ∧ t.createdItem?.isSome
  /-- Nothing is asked for a child before the parent queued under its tag has been created. -/
  gate : ∀ earlier t later tag, turns = earlier ++ t :: later → t.seat = .child tag →
    t.exchanges ≠ [] → ∃ q ∈ earlier, Turn.parentOf turns tag = some q ∧
      (tag, q.parcel) ∈ d.parents ∧ q.createdItem?.isSome
  /-- A child with a queued parent comes after it. -/
  after_parent : ∀ earlier t later tag p, turns = earlier ++ t :: later →
    t.seat = .child tag → (tag, p) ∈ d.parents → (Turn.parentOf earlier tag).isSome
  /-- Each turn is what the draft and the turns before it allow. -/
  lawful : ∀ earlier t later, turns = earlier ++ t :: later →
    t.Lawful d.remoteIds base earlier

/-- Only a queued parent has the turn of a parent. -/
theorem Draft.mem_parents_of_mem_queue {d : Draft} {tag : Tag} {p : Parcel}
    (h : (Seat.parent tag, p) ∈ d.queue) : (tag, p) ∈ d.parents := by
  rw [queue] at h
  rw [List.mem_append, List.mem_append, List.mem_map, List.mem_map, List.mem_map] at h
  rcases h with (⟨_, -, heq⟩ | ⟨c, hc, heq⟩) | ⟨_, -, heq⟩
  · cases heq
  · cases heq
    exact hc
  · cases heq

/-- When the turn of a child comes, a parent queued under its tag has had its turn. -/
theorem Draft.isSome_parentOf {d : Draft} {earlier later : List Turn} {t : Turn} {tag : Tag}
    {p : Parcel} (hschedule : (earlier ++ t :: later).map Turn.slot = d.schedule)
    (hseat : t.seat = .child tag) (hp : (tag, p) ∈ d.parents) :
    (Turn.parentOf earlier tag).isSome := by
  have hslot : t.slot = (.child tag, t.parcel) := Prod.ext hseat rfl
  rw [List.map_append, List.map_cons, hslot] at hschedule
  -- A child is none of the parcels on their own, so it stands among the families
  obtain ⟨between, hearlier, hfamilies⟩ := split_of_not_mem (by
    rw [List.mem_map]
    rintro ⟨_, -, hchild⟩
    cases hchild) hschedule.symm
  obtain ⟨q, hq⟩ := exists_parent_of_scheduleFamilies_eq hfamilies hp
  have hmem : (Seat.parent tag, q) ∈ earlier.map Turn.slot := by
    rw [hearlier]
    exact List.mem_append_right _ hq
  obtain ⟨u, hu, huslot⟩ := List.mem_map.mp hmem
  rw [Turn.parentOf]
  rw [List.find?_isSome]
  exact ⟨u, hu, decide_eq_true (congrArg Prod.fst huslot)⟩

namespace Turn

theorem isSome_createdItem?_eq (t : Turn) : t.createdItem?.isSome = t.fate.id?.isSome :=
  Option.isSome_map

theorem isSome_bindFailure?_iff (t : Turn) :
    t.bindFailure?.isSome ↔
      t.fate.binding?.isSome ∧ ∃ x e, t.fate.binding? = some x ∧ x.answer = .error e := by
  rw [bindFailure?]
  cases hbinding : t.fate.binding? with
  | none => simp
  | some x =>
    obtain ⟨call, answer⟩ := x
    cases answer with
    | ok _ => simp
    | error e => simp

end Turn

/-- Lawful turns by the schedule of a draft account for it. -/
theorem Account.of_lawful {d : Draft} {base : String} {turns : List Turn} {report : BuildReport}
    (hschedule : turns.map Turn.slot = d.schedule)
    (hcreated : report.created = turns.filterMap Turn.createdItem?)
    (hfailed : report.failed = turns.flatMap Turn.failedItems)
    (hlawful : ∀ earlier t later, turns = earlier ++ t :: later →
      t.Lawful d.remoteIds base earlier) : Account d base turns report := by
  have hqueued : (turns.map Turn.slot).Perm d.queue := by
    rw [hschedule]
    exact d.schedule_perm_queue
  have hturn : ∀ t ∈ turns, ∃ earlier, t.Lawful d.remoteIds base earlier := by
    intro t ht
    obtain ⟨earlier, later, hsplit⟩ := List.append_of_mem ht
    exact ⟨earlier, hlawful earlier t later hsplit⟩
  have hbinding : ∀ t ∈ turns, t.fate.binding?.isSome ↔
      (∃ tag, t.seat = .child tag) ∧ t.parcel.type.childMode = .associate ∧
        t.createdItem?.isSome := by
    intro t ht
    obtain ⟨earlier, h⟩ := hturn t ht
    rw [t.isSome_createdItem?_eq]
    exact h.binding_iff
  refine
    { queued := hqueued, alone_first := ?_, created := hcreated, failed := hfailed
      one_outcome := fun t _ => t.isSome_createdItem?, bind_failure := ?_, balance := ?_
      creation := ?_, binding := hbinding, gate := ?_, after_parent := ?_, lawful := hlawful }
  · -- The schedule has the parcels on their own first
    obtain ⟨first, rest, rfl, hfirst, hrest⟩ := List.map_eq_append_iff.mp hschedule
    refine ⟨first, rest, rfl, hfirst, fun t ht => ?_⟩
    have hslot : t.slot ∈ rest.map Turn.slot := List.mem_map_of_mem ht
    rw [hrest] at hslot
    exact seat_ne_alone_of_mem_scheduleFamilies hslot
  · -- A binding can only fail if there was one
    intro t ht
    rw [t.isSome_bindFailure?_iff, hbinding t ht, and_assoc, and_assoc]
  · -- There are as many turns as queued parcels
    rw [hcreated, hfailed, Turn.length_items, ← hqueued.length_eq, List.length_map]
  · -- What a turn sends, and what came of it
    intro earlier t later hsplit
    have h := hlawful earlier t later hsplit
    refine ⟨?_, fun x hx => h.call_of_creation? hx⟩
    rw [t.isSome_createdItem?_eq, h.id?_eq]
  · -- The parent that a child found is the first under its tag in the whole build
    intro earlier t later tag hsplit hseat hasked
    obtain ⟨q, hparent, hid⟩ := (hlawful earlier t later hsplit).gate hseat hasked
    obtain ⟨hq, hqseat⟩ := Turn.of_parentOf_eq_some hparent
    refine ⟨q, hq, ?_, ?_, ?_⟩
    · rw [hsplit]
      exact Turn.parentOf_append_of_some hparent _
    · have hslot : q.slot ∈ turns.map Turn.slot := by
        rw [hsplit]
        exact List.mem_map_of_mem (List.mem_append_left _ hq)
      refine Draft.mem_parents_of_mem_queue (hqueued.mem_iff.mp ?_)
      rw [← hqseat]
      exact hslot
    · rw [q.isSome_createdItem?_eq]
      exact hid
  · -- The schedule has no child before a parent under its tag
    intro earlier t later tag p hsplit hseat hp
    rw [hsplit] at hschedule
    exact Draft.isSome_parentOf hschedule hseat hp

/-! ## Every build -/

namespace Draft

variable {σ : Type}

/-- The call that opens a build. -/
def openingCall (d : Draft) (header : ProfileHeader) : Call :=
  .create d.type.collectionPath (profileBody header)

/-- A build ends with the opening exchange, or goes on to the parcels of the draft. -/
theorem buildNamed_cases (m : Manager σ) (d : Draft) (header : ProfileHeader) (s : Session σ) :
    ∃ (opening : Exchange) (opened : Session σ), opening.call = d.openingCall header ∧
      m.Leads s [opening] opened ∧
      match opening.id? with
      | none => ∃ e, d.buildNamed m header s = (.error e, opened)
      | some id =>
        let b := d.buildParcels m ⟨opened, d.remoteIds, .start header.name d.type id⟩
        d.buildNamed m header s = (.ok b.report, b.session) := by
  rw [buildNamed, createProfile]
  rcases hask : m.ask (.create d.type.collectionPath (profileBody header)) s with ⟨answer, opened⟩
  refine ⟨⟨d.openingCall header, answer⟩, opened, rfl, Manager.leads_of_ask hask, ?_⟩
  cases answer with
  | error e => exact ⟨e, rfl⟩
  | ok response =>
    have hopening : Exchange.id? ⟨d.openingCall header, .ok response⟩ = createdId response := rfl
    rw [hopening]
    dsimp only
    cases hid : createdId response with
    | none => exact ⟨_, rfl⟩
    | some id => rfl

/-- A draft whose profile is created runs through its schedule. -/
theorem buildNamed_runs (m : Manager σ) (d : Draft) (header : ProfileHeader) (s : Session σ) :
    ∃ (opening : Exchange) (opened : Session σ), opening.call = d.openingCall header ∧
      m.Leads s [opening] opened ∧
      match opening.id? with
      | none => ∃ e, d.buildNamed m header s = (.error e, opened)
      | some id => ∃ turns b, turns.map Turn.slot = d.schedule ∧
        Build.Runs m ⟨opened, d.remoteIds, .start header.name d.type id⟩ turns b ∧
        d.buildNamed m header s = (.ok b.report, b.session) := by
  obtain ⟨opening, opened, hcall, hopen, hcases⟩ := d.buildNamed_cases m header s
  refine ⟨opening, opened, hcall, hopen, ?_⟩
  cases hid : opening.id? with
  | none =>
    rw [hid] at hcases
    exact hcases
  | some id =>
    rw [hid] at hcases
    obtain ⟨turns, hschedule, hruns⟩ :=
      d.buildParcels_runs m ⟨opened, d.remoteIds, .start header.name d.type id⟩
    exact ⟨turns, _, hschedule, hruns, hcases⟩

/-- The same for a draft that is given its name beforehand. -/
theorem build_runs (m : Manager σ) (d : Draft) (header : ProfileHeader) (s : Session σ) :
    ∃ (opening : Exchange) (opened : Session σ), opening.call = d.openingCall header ∧
      m.Leads s [opening] opened ∧
      match opening.id? with
      | none => ∃ e, build m { d with header := some header } s = (.error (.transport e), opened)
      | some id => ∃ turns b, turns.map Turn.slot = d.schedule ∧
        Build.Runs m ⟨opened, d.remoteIds, .start header.name d.type id⟩ turns b ∧
        build m { d with header := some header } s = (.ok b.report, b.session) := by
  obtain ⟨opening, opened, hcall, hopen, hcases⟩ :=
    buildNamed_runs m { d with header := some header } header s
  refine ⟨opening, opened, hcall, hopen, ?_⟩
  rw [build]
  dsimp only
  cases hid : opening.id? with
  | none =>
    rw [hid] at hcases
    obtain ⟨e, hbuild⟩ := hcases
    exact ⟨e, by rw [hbuild]⟩
  | some id =>
    rw [hid] at hcases
    obtain ⟨turns, b, hschedule, hruns, hbuild⟩ := hcases
    exact ⟨turns, b, hschedule, hruns, by rw [hbuild]⟩

/-- A run through the schedule of a draft accounts for it. -/
theorem account_of_runs {m : Manager σ} {d : Draft} {opened : Session σ} {name : String}
    {id : Uuid} {turns : List Turn} {b : Build σ} (hschedule : turns.map Turn.slot = d.schedule)
    (hruns : Build.Runs m ⟨opened, d.remoteIds, .start name d.type id⟩ turns b) :
    Account d b.report.profilePath turns b.report := by
  have hreport := hruns.report
  refine Account.of_lawful hschedule ?_ ?_ fun earlier t later hsplit => ?_
  · rw [hreport]
    rfl
  · rw [hreport]
    rfl
  · rw [hruns.profilePath]
    exact hruns.lawful hsplit

/-- A draft whose profile is created gets a report on all its turns. -/
theorem buildNamed_account (m : Manager σ) (d : Draft) (header : ProfileHeader) (s : Session σ) :
    ∃ opening : Exchange, opening.call = d.openingCall header ∧
      match opening.id? with
      | none => ∃ e s', d.buildNamed m header s = (.error e, s') ∧ m.Leads s [opening] s'
      | some id => ∃ report s' turns, d.buildNamed m header s = (.ok report, s') ∧
        m.Leads s (opening :: turns.flatMap Turn.exchanges) s' ∧
        report.profileName = header.name ∧ report.profileType = d.type ∧
        report.profileId = id ∧ Account d report.profilePath turns report := by
  obtain ⟨opening, opened, hcall, hopen, hcases⟩ := d.buildNamed_runs m header s
  refine ⟨opening, hcall, ?_⟩
  cases hid : opening.id? with
  | none =>
    rw [hid] at hcases
    obtain ⟨e, hbuild⟩ := hcases
    exact ⟨e, opened, hbuild, hopen⟩
  | some id =>
    rw [hid] at hcases
    obtain ⟨turns, b, hschedule, hruns, hbuild⟩ := hcases
    refine ⟨_, _, turns, hbuild, hopen.trans hruns.talk, ?_, ?_, ?_,
      account_of_runs hschedule hruns⟩
    · rw [hruns.report]
      rfl
    · rw [hruns.report]
      rfl
    · rw [hruns.report]
      rfl

/-- Every build of a draft with a name begins with the creation of the profile. Without an
    identifier in the answer it ends there, in an error; with one it asks what its turns ask,
    and its report accounts for every queued parcel. -/
theorem build_account (m : Manager σ) (d : Draft) (header : ProfileHeader) (s : Session σ) :
    let result := build m { d with header := some header } s
    ∃ opening : Exchange, opening.call = d.openingCall header ∧
      match opening.id? with
      | none => (∃ e, result.1 = .error (.transport e)) ∧ m.Leads s [opening] result.2
      | some id => ∃ report turns, result.1 = .ok report ∧ report.profileId = id ∧
        m.Leads s (opening :: turns.flatMap Turn.exchanges) result.2 ∧
        Account d report.profilePath turns report := by
  obtain ⟨opening, hcall, hcases⟩ := buildNamed_account m { d with header := some header } header s
  refine ⟨opening, hcall, ?_⟩
  rw [build]
  dsimp only
  cases hid : opening.id? with
  | none =>
    rw [hid] at hcases
    obtain ⟨e, s', hbuild, htalk⟩ := hcases
    rw [hbuild]
    exact ⟨⟨e, rfl⟩, htalk⟩
  | some id =>
    rw [hid] at hcases
    obtain ⟨report, s', turns, hbuild, htalk, -, -, hreport, haccount⟩ := hcases
    rw [hbuild]
    -- The header has no part in the account
    exact ⟨report, turns, rfl, hreport, htalk,
      { haccount with lawful := haccount.lawful }⟩

end Draft

end ProfileMigration
