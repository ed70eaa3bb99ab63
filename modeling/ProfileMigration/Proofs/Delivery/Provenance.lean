/-
  ProfileMigration.Proofs.Delivery.Provenance

  Where the identifiers come from that a push puts in place of references:

    Turn.latest                     -- the identifier last returned for an object
    Turn.get?_known                 -- what is known after turns is what they returned last
    TransformResult.sharedTurns     -- the turns of the shared profile
    Ledger.get?_known               -- between profiles only these are known
    push_binds_own_or_shared        -- so it is in every push, in every profile, at every turn

  Identifiers that other profiles of their own have returned play no part, even for the same
  object.
-/
import ProfileMigration.Proofs.Build.Binding
import ProfileMigration.Proofs.Delivery.Completeness
import ProfileMigration.Proofs.Field.Leaves

namespace ProfileMigration

/-! ## What turns returned -/

namespace Turn

/-- The identifier that the manager returned for an object, if the turn created it. -/
def returned? (t : Turn) (r : Uuid) : Option Uuid :=
  if t.parcel.id = some r then t.fate.creation?.bind Exchange.id? else none

/-- The identifier that was last returned for an object, in turns. -/
def latest (turns : List Turn) (r : Uuid) : Option Uuid :=
  turns.reverse.findSome? fun t => t.returned? r

theorem latest_cons (t : Turn) (turns : List Turn) (r : Uuid) :
    latest (t :: turns) r = (latest turns r).or (t.returned? r) := by
  rw [latest, List.reverse_cons, List.findSome?_append, List.findSome?_singleton]
  rfl

theorem get?_remember {t : Turn} (hid : t.fate.id? = t.fate.creation?.bind Exchange.id?)
    (ids : RemoteIds) (r : Uuid) :
    (t.remember ids).get? r = (t.returned? r).or (ids.get? r) := by
  rw [remember, returned?, ← hid]
  cases t.fate.id? with
  | none => simp
  | some id =>
    cases t.parcel.id with
    | none => simp
    | some origin =>
      by_cases horigin : origin = r
      · simp [horigin, RemoteIds.get?, RemoteIds.assign]
      · have hbeq : (r == origin) = false := beq_eq_false_iff_ne.mpr (Ne.symm horigin)
        simp [horigin, hbeq, RemoteIds.get?, RemoteIds.assign, List.lookup_cons]

/-- What is known after turns is what they returned last, over what was known before. -/
theorem get?_known {turns : List Turn}
    (hid : ∀ t ∈ turns, t.fate.id? = t.fate.creation?.bind Exchange.id?) (ids : RemoteIds)
    (r : Uuid) : (known ids turns).get? r = (latest turns r).or (ids.get? r) := by
  induction turns generalizing ids with
  | nil => rfl
  | cons t turns ih =>
    obtain ⟨ht, hturns⟩ := List.forall_mem_cons.mp hid
    have hknown : known ids (t :: turns) = known (t.remember ids) turns := rfl
    rw [hknown, ih hturns, get?_remember ht, latest_cons, Option.or_assoc]

end Turn

/-! ## What deliveries pass on -/

namespace Delivery

variable {ids : RemoteIds}

/-- The turns of a delivery are those of its report. -/
theorem Lawful.turn {d : Delivery} (h : d.Lawful ids) {earlier later : List Turn} {t : Turn}
    (hsplit : d.turns = earlier ++ t :: later) :
    ∃ report, d.report? = some report ∧
      Account (d.plan.draft ids) report.profilePath d.turns report ∧
      t.Lawful ids report.profilePath earlier := by
  obtain ⟨shared, plan, opening, outcome⟩ := d
  cases outcome with
  | error e => simp [turns] at hsplit
  | ok made =>
    obtain ⟨-, -, -, -, haccount⟩ := h
    exact ⟨made.1, rfl, haccount, haccount.lawful earlier t later hsplit⟩

/-- A parcel has the identifier that the answer to its own creation gave. -/
theorem Lawful.id?_eq {d : Delivery} (h : d.Lawful ids) :
    ∀ t ∈ d.turns, t.fate.id? = t.fate.creation?.bind Exchange.id? := by
  intro t ht
  obtain ⟨earlier, later, hsplit⟩ := List.append_of_mem ht
  obtain ⟨report, -, -, hlawful⟩ := h.turn hsplit
  exact hlawful.id?_eq

/-- Profiles of their own add nothing to what later ones know. -/
theorem known_of_own {ds : List Delivery} (h : ∀ d ∈ ds, d.shared = false) :
    known ids ds = ids := by
  induction ds with
  | nil => rfl
  | cons d ds ih =>
    obtain ⟨hd, hds⟩ := List.forall_mem_cons.mp h
    have hknown : known ids (d :: ds) = known (d.remember ids) ds := rfl
    rw [hknown, remember, hd]
    exact ih hds

end Delivery

/-- The turns of the shared profile, among deliveries: it is the first one, if there is one. -/
def TransformResult.sharedTurns (plans : TransformResult) (ds : List Delivery) : List Turn :=
  match plans.policyObjects, ds with
  | some _, d :: _ => d.turns
  | _, _ => []

namespace Ledger

variable {σ : Type} {m : Manager σ} {plans : TransformResult} {s : Session σ} {ds : List Delivery}
  {pushed : PushResult × Session σ}

/-- Before a delivery, what is known is what the shared profile returned last. -/
theorem get?_known (h : Ledger m plans s ds pushed) {before after : List Delivery} {d : Delivery}
    (hsplit : ds = before ++ d :: after) (r : Uuid) :
    (Delivery.known [] before).get? r = Turn.latest (plans.sharedTurns before) r := by
  obtain ⟨rest, hplans, -, -⟩ := h.started
  rw [hsplit, List.map_append, List.append_assoc] at hplans
  have hown : ∀ {ds : List Delivery} {more : List (Bool × ProfilePlan)},
      plans.profiles.map (false, ·) = ds.map Delivery.slot ++ more →
        ∀ d ∈ ds, d.shared = false := by
    intro ds more hslots d hd
    have hmem : d.slot ∈ plans.profiles.map (false, ·) := by
      rw [hslots]
      exact List.mem_append_left _ (List.mem_map_of_mem hd)
    obtain ⟨plan, -, hslot⟩ := List.mem_map.mp hmem
    exact (congrArg Prod.fst hslot).symm
  cases hshared : plans.policyObjects with
  | none =>
    rw [hshared] at hplans
    have hturns : plans.sharedTurns before = [] := by simp [TransformResult.sharedTurns, hshared]
    rw [Delivery.known_of_own (hown hplans), hturns]
    rfl
  | some plan =>
    rw [hshared] at hplans
    cases before with
    | nil => simp [TransformResult.sharedTurns, Delivery.known, Turn.latest, RemoteIds.get?]
    | cons first before =>
      -- The first delivery is of the shared profile, and all others are of their own
      obtain ⟨hfirst, hothers⟩ := List.cons.inj hplans
      have hopen : first.shared = true := (congrArg Prod.fst hfirst).symm
      have hlawful : first.Lawful [] := h.lawful [] first _ hsplit
      have hknown : Delivery.known [] (first :: before) = Turn.known [] first.turns := by
        have hcons : Delivery.known [] (first :: before) =
            Delivery.known (first.remember []) before := rfl
        rw [hcons, Delivery.known_of_own (hown hothers), Delivery.remember, if_pos hopen]
      have hturns : plans.sharedTurns (first :: before) = first.turns := by
        simp only [TransformResult.sharedTurns, hshared]
      rw [hknown, hturns, Turn.get?_known hlawful.id?_eq]
      exact Option.or_none

end Ledger

/-! ## Every push -/

/-- In every push every member of a plan has a turn once the profile is created, and what is sent
    for it has in place of each reference the identifier last returned for that object earlier in
    the same profile, or else the one last returned for it in the shared profile. A parcel that
    refers to an object with neither is not sent and is reported as failed, whatever other
    profiles have created. -/
theorem push_binds_own_or_shared {σ : Type} (m : Manager σ) (plans : TransformResult)
    (s : Session σ) :
    ∃ ds, Ledger m plans s ds (push m plans s) ∧
      (∀ d ∈ ds, d.report?.isSome → (d.turns.map Turn.parcel).Perm
        (d.plan.parcels ++ d.plan.parents.flatMap fun v => v.parcel :: v.children)) ∧
      ∀ before d after, ds = before ++ d :: after →
        ∀ earlier t later, d.turns = earlier ++ t :: later →
          let remote := fun r =>
            (Turn.latest earlier r).or (Turn.latest (plans.sharedTurns before) r)
          (∃ ids : RemoteIds, ids.get? = remote ∧ t.Binds ids earlier) ∧
          (∀ x, t.fate.creation? = some x → ∃ path body, ∃ data : FieldMap,
            x.call = .create path body ∧ body.get? "data" = some data.toJson ∧ data.objectIds = [] ∧
            List.Forall₂ (TypedValue.Becomes remote) t.parcel.data.leaves data.leaves) ∧
          ∀ r ∈ t.parcel.references, remote r = none →
            t.exchanges = [] ∧ t.createdItem? = none ∧
              ∃ report ∈ (push m plans s).1.reports, d.report? = some report ∧
                ∃ item ∈ report.failed, item ∈ t.failedItems := by
  obtain ⟨ds, hledger⟩ := push_ledger m plans s
  refine ⟨ds, hledger, ?_, ?_⟩
  · intro d hd
    obtain ⟨before, after, hsplit⟩ := List.append_of_mem hd
    exact (hledger.lawful before d after hsplit).whole.members
  intro before d after hsplit earlier t later hturns remote
  have hd := hledger.lawful before d after hsplit
  obtain ⟨report, hreport, haccount, hlawful⟩ := hd.turn hturns
  -- What is known at the turn is what this profile returned, over what the shared one did
  have hearlier : ∀ u ∈ earlier, u.fate.id? = u.fate.creation?.bind Exchange.id? := by
    intro u hu
    refine hd.id?_eq u ?_
    rw [hturns]
    exact List.mem_append_left _ hu
  have hremote : (Turn.known (Delivery.known [] before) earlier).get? = remote := by
    funext r
    rw [Turn.get?_known hearlier, hledger.get?_known hsplit]
  have hbinds := hlawful.binds
  refine ⟨⟨_, hremote, hbinds⟩, ?_, ?_⟩
  · intro x hx
    obtain ⟨path, body, data, hcall, -, hdata, hfield, hnone⟩ := hbinds.sent x hx
    refine ⟨path, body, data, hcall, hfield, hnone, ?_⟩
    rw [← hremote]
    exact FieldMap.leaves_of_bind hdata
  · intro r hr hunknown
    rw [← hremote] at hunknown
    obtain ⟨hasked, hcreated, ⟨reason, hfailed⟩, -⟩ := hbinds.unknown r hr hunknown
    have hitem : t.failedItem reason none none ∈ t.failedItems := by
      rw [hfailed]
      exact List.mem_singleton_self _
    refine ⟨hasked, hcreated, report, ?_, hreport, _, ?_, hitem⟩
    · rw [hledger.reports, hsplit]
      exact List.mem_filterMap.mpr ⟨d, by simp, hreport⟩
    · rw [haccount.failed, hturns]
      exact List.mem_flatMap.mpr ⟨t, by simp, hitem⟩

end ProfileMigration
