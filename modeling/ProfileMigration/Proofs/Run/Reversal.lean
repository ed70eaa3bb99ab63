/-
  ProfileMigration.Proofs.Run.Reversal

  A rollback right after a push takes back what the push created, and nothing else:

    Exchange.Opens              -- the manager returns an identifier for a profile
    Exchange.isOpening          -- the same, of whatever profile
    BuildReport.OpenedBy        -- a report is on the profile that an exchange created
    push_openings               -- a push has one report for each profile that it created
    Deletion                    -- a profile to take back, and the exchange that is to delete it
    rollback_deletes            -- a rollback goes through all reports, the last one first
    Runner.push_rollback        -- so it asks for one deletion of each profile of the push
-/
import Mathlib.Data.List.Forall2
import ProfileMigration.Proofs.Delivery.Ledger
import ProfileMigration.Run.Runner

namespace ProfileMigration

variable {σ : Type}

/-! ## Opening profiles -/

namespace Exchange

/-- The manager answers the creation of a profile with this identifier. -/
def Opens (x : Exchange) (type : ProfileType) (id : Uuid) : Prop :=
  x.call.method = .post ∧ x.call.path = type.collectionPath ∧ x.id? = some id

instance (x : Exchange) (type : ProfileType) (id : Uuid) : Decidable (x.Opens type id) :=
  inferInstanceAs (Decidable (_ ∧ _ ∧ _))

/-- The manager answers the creation of some profile with an identifier. -/
def isOpening (x : Exchange) : Bool :=
  x.call.method = .post && x.call.path ∈ ProfileType.all.map ProfileType.collectionPath &&
    x.id?.isSome

theorem isOpening_iff {x : Exchange} : x.isOpening = true ↔ ∃ type id, x.Opens type id := by
  have hall : ∀ type : ProfileType, type ∈ ProfileType.all := by
    intro type
    cases type <;> decide
  rw [isOpening, Bool.and_eq_true, Bool.and_eq_true, decide_eq_true_iff, decide_eq_true_iff,
    Option.isSome_iff_exists]
  constructor
  · rintro ⟨⟨hmethod, hpath⟩, id, hid⟩
    obtain ⟨type, -, hpath⟩ := List.mem_map.mp hpath
    exact ⟨type, id, hmethod, hpath.symm, hid⟩
  · rintro ⟨type, id, hmethod, hpath, hid⟩
    exact ⟨⟨hmethod, List.mem_map.mpr ⟨type, hall type, hpath.symm⟩⟩, id, hid⟩

end Exchange

namespace ProfileType

theorem collectionPath_injective {a b : ProfileType} (h : a.collectionPath = b.collectionPath) :
    a = b := by
  cases a <;> cases b <;> first | rfl | exact absurd h (by decide)

/-- Nothing below a profile is created where profiles are. -/
theorem collectionPath_ne_below (a b : ProfileType) (id : Uuid) (rest : String) :
    a.profilePath id ++ "/" ++ rest ≠ b.collectionPath := by
  -- The path of a profile has one slash more than that of a collection already
  have hslashes : ∀ t : ProfileType, t.collectionPath.toList.count '/' = 4 := by
    intro t
    cases t <;> decide
  intro h
  have hcount := congrArg (fun s => s.toList.count '/') h
  simp only [profilePath, String.toList_append, List.count_append, hslashes] at hcount
  have hslash : "/".toList.count '/' = 1 := by decide
  omega

end ProfileType

/-- A report is on the profile that an exchange created: one of its type and name, with the
    identifier in the answer. -/
def BuildReport.OpenedBy (r : BuildReport) (x : Exchange) : Prop :=
  (∃ description, x.call = .create r.profileType.collectionPath
    (Draft.profileBody ⟨r.profileName, description⟩)) ∧ x.id? = some r.profileId

/-- The profile of a report is the one that was opened. -/
theorem BuildReport.OpenedBy.opens {r : BuildReport} {x : Exchange} (h : r.OpenedBy x) :
    x.Opens r.profileType r.profileId := by
  obtain ⟨⟨_, hcall⟩, hid⟩ := h
  rw [Exchange.Opens, hcall]
  exact ⟨rfl, rfl, hid⟩

/-- An exchange opens one profile. -/
theorem Exchange.Opens.unique {x : Exchange} {type type' : ProfileType} {id id' : Uuid}
    (h : x.Opens type id) (h' : x.Opens type' id') : type = type' ∧ id = id' :=
  ⟨ProfileType.collectionPath_injective (h.2.1.symm.trans h'.2.1),
    Option.some.inj (h.2.2.symm.trans h'.2.2)⟩

/-! ## The profiles of a push -/

/-- What is asked in a turn is asked below the profile. -/
theorem Turn.Lawful.below {ids : RemoteIds} {base : String} {earlier : List Turn} {t : Turn}
    (h : t.Lawful ids base earlier) :
    ∀ x ∈ t.exchanges, ∃ rest, x.call.path = base ++ "/" ++ rest := by
  have hsent : ∀ {path : String} {p : Parcel} {fate : Fate} {known : RemoteIds},
      Sent known path p fate → (∃ rest, path = base ++ "/" ++ rest) →
        ∀ x ∈ fate.creation?.toList, ∃ rest, x.call.path = base ++ "/" ++ rest := by
    intro path p fate known h hpath x hx
    obtain ⟨body, -, hcall⟩ := h.call_of_creation? (Option.mem_toList.mp hx)
    rw [hcall]
    exact hpath
  have hbelow : ∀ (q p : Parcel) (id : Uuid), ∃ rest,
      Build.pathBelow (parentPath base q id) p.type = base ++ "/" ++ rest := by
    intro q p id
    refine ⟨q.type.tag ++ "/" ++ id.text ++ "/" ++ p.type.tag, ?_⟩
    simp only [Build.pathBelow, parentPath, String.append_assoc]
  intro x hx
  rw [exchanges] at hx
  cases h with
  | alone h | parent h =>
    rw [h.binding?_eq_none] at hx
    exact hsent h ⟨_, rfl⟩ x (by simpa using hx)
  | orphan _ | bereft _ _ => cases hx
  | nested _ _ _ h =>
    rw [h.binding?_eq_none] at hx
    exact hsent h (hbelow _ _ _) x (by simpa using hx)
  | unbound _ _ _ h _ =>
    rw [h.binding?_eq_none] at hx
    exact hsent h ⟨_, rfl⟩ x (by simpa using hx)
  | bound _ _ _ h hbinding =>
    rcases List.mem_append.mp hx with hx | hx
    · exact hsent h ⟨_, rfl⟩ x hx
    · obtain rfl := Option.some.inj (Option.mem_toList.mp hx)
      rw [hbinding]
      exact hbelow _ _ _

namespace Delivery.Lawful

variable {d : Delivery} {ids : RemoteIds}

/-- The report of a delivery is on the profile that its first exchange created. -/
theorem openedBy (h : d.Lawful ids) {report : BuildReport} (hreport : d.report? = some report) :
    report.OpenedBy d.opening := by
  obtain ⟨shared, plan, opening, outcome⟩ := d
  obtain ⟨hcall, houtcome⟩ := h
  cases outcome with
  | error e => cases hreport
  | ok made =>
    obtain rfl := Option.some.inj hreport
    obtain ⟨hid, hname, htype, -⟩ := houtcome
    refine ⟨⟨plan.description, ?_⟩, hid⟩
    rw [hname, htype]
    exact hcall

/-- What a delivery asks opens no profile but its own. -/
theorem filter_isOpening (h : d.Lawful ids) :
    d.exchanges.filter Exchange.isOpening = (d.report?.map fun _ => d.opening).toList := by
  have hopening : ∀ report, d.report? = some report → report.OpenedBy d.opening :=
    fun _ => h.openedBy
  obtain ⟨shared, plan, opening, outcome⟩ := d
  obtain ⟨-, houtcome⟩ := h
  cases outcome with
  | error e =>
    have hno : ¬ opening.isOpening = true := by
      rw [Exchange.isOpening_iff]
      rintro ⟨type, id, -, -, hid⟩
      rw [show opening.id? = none from houtcome] at hid
      cases hid
    exact List.filter_cons_of_neg hno
  | ok made =>
    obtain ⟨report, turns⟩ := made
    obtain ⟨-, -, -, haccount⟩ := houtcome
    have hyes : opening.isOpening = true :=
      Exchange.isOpening_iff.mpr ⟨_, _, (hopening report rfl).opens⟩
    have hrest : (turns.flatMap Turn.exchanges).filter Exchange.isOpening = [] := by
      rw [List.filter_eq_nil_iff]
      intro x hx hopen
      obtain ⟨type, id, -, hpath, -⟩ := Exchange.isOpening_iff.mp hopen
      -- Everything but the first exchange is asked below the profile
      obtain ⟨t, ht, hxt⟩ := List.mem_flatMap.mp hx
      obtain ⟨earlier, later, hsplit⟩ := List.append_of_mem ht
      obtain ⟨rest, hbelow⟩ := (haccount.lawful earlier t later hsplit).below x hxt
      rw [hbelow] at hpath
      exact ProfileType.collectionPath_ne_below _ _ _ rest hpath
    exact (List.filter_cons_of_pos hyes).trans (congrArg (opening :: ·) hrest)

end Delivery.Lawful

/-- A push has one report for each profile that it created, in order of creation. -/
theorem push_openings (m : Manager σ) (plans : TransformResult) (s : Session σ) :
    ∃ xs, m.Leads s xs (push m plans s).2 ∧
      List.Forall₂ BuildReport.OpenedBy (push m plans s).1.reports
        (xs.filter Exchange.isOpening) := by
  obtain ⟨ds, hledger⟩ := push_ledger m plans s
  refine ⟨_, hledger.talk, ?_⟩
  rw [hledger.reports]
  have hlawful : ∀ d ∈ ds, ∃ ids, d.Lawful ids := by
    intro d hd
    obtain ⟨before, after, hsplit⟩ := List.append_of_mem hd
    exact ⟨_, hledger.lawful before d after hsplit⟩
  clear hledger
  induction ds with
  | nil => exact .nil
  | cons d ds ih =>
    obtain ⟨⟨ids, hd⟩, hds⟩ := List.forall_mem_cons.mp hlawful
    rw [List.flatMap_cons, List.filter_append, hd.filter_isOpening, List.filterMap_cons]
    cases hreport : d.report? with
    | none => exact ih hds
    | some report => exact .cons (hd.openedBy hreport) (ih hds)

/-! ## The deletions of a rollback -/

/-- A profile to take back, and the exchange that is to delete it. -/
structure Deletion where
  report : BuildReport
  exchange : Exchange

namespace Deletion

/-- The identifier of the profile, if it was deleted. -/
def deleted? (d : Deletion) : Option Uuid :=
  match d.exchange.answer with
  | .ok _ => some d.report.profileId
  | .error _ => none

/-- The entry of the profile among those that are still there, if it was not. -/
def failed? (d : Deletion) : Option ProfileFailure :=
  match d.exchange.answer with
  | .ok _ => none
  | .error e => some ⟨d.report.profileName, d.report.profileType, e.message⟩

/-- The profile is in exactly one of the lists of a rollback. -/
theorem isSome_deleted? (d : Deletion) : d.deleted?.isSome = !d.failed?.isSome := by
  rw [deleted?, failed?]
  cases d.exchange.answer <;> rfl

end Deletion

/-- One step of a rollback: one deletion, whatever its answer. -/
theorem deleteProfile_deletes (m : Manager σ) (done : RollbackReport × Session σ)
    (r : BuildReport) :
    ∃ d : Deletion, d.report = r ∧ d.exchange.call = .delete r.profilePath ∧
      m.Leads done.2 [d.exchange] (deleteProfile m done r).2 ∧
      (deleteProfile m done r).1 =
        ⟨done.1.deleted ++ d.deleted?.toList, done.1.failed ++ d.failed?.toList⟩ := by
  obtain ⟨report, s⟩ := done
  rw [deleteProfile]
  rcases hask : m.ask (.delete r.profilePath) s with ⟨answer, s'⟩
  refine ⟨⟨r, ⟨.delete r.profilePath, answer⟩⟩, rfl, rfl, ?_⟩
  cases answer with
  | ok answer => exact ⟨Manager.leads_of_ask hask, by simp [Deletion.deleted?, Deletion.failed?]⟩
  | error e => exact ⟨Manager.leads_of_ask hask, by simp [Deletion.deleted?, Deletion.failed?]⟩

/-- A rollback asks for the deletion of every profile of the push, newest first, and for nothing
    else; a deletion that fails does not keep it from going on. -/
theorem rollback_deletes (m : Manager σ) (pushed : PushResult) (s : Session σ) :
    ∃ ds : List Deletion, ds.map Deletion.report = pushed.reports.reverse ∧
      (∀ d ∈ ds, d.exchange.call = .delete d.report.profilePath) ∧
      m.Leads s (ds.map Deletion.exchange) (rollback m pushed s).2 ∧
      (rollback m pushed s).1 =
        ⟨ds.filterMap Deletion.deleted?, ds.filterMap Deletion.failed?⟩ := by
  suffices hgo : ∀ (reports : List BuildReport) (done : RollbackReport × Session σ),
      ∃ ds : List Deletion, ds.map Deletion.report = reports ∧
        (∀ d ∈ ds, d.exchange.call = .delete d.report.profilePath) ∧
        m.Leads done.2 (ds.map Deletion.exchange) (reports.foldl (deleteProfile m) done).2 ∧
        (reports.foldl (deleteProfile m) done).1 =
          ⟨done.1.deleted ++ ds.filterMap Deletion.deleted?,
            done.1.failed ++ ds.filterMap Deletion.failed?⟩ from
    hgo pushed.reports.reverse (.empty, s)
  intro reports
  induction reports with
  | nil => exact fun done => ⟨[], rfl, List.forall_mem_nil _, .refl m _, by simp⟩
  | cons r reports ih =>
    intro done
    obtain ⟨d, hreport, hcall, hone, hdone⟩ := deleteProfile_deletes m done r
    obtain ⟨ds, hreports, hcalls, htalk, hrest⟩ := ih (deleteProfile m done r)
    refine ⟨d :: ds, ?_, List.forall_mem_cons.mpr ⟨hreport ▸ hcall, hcalls⟩, hone.trans htalk, ?_⟩
    · rw [List.map_cons, hreport, hreports]
    · rw [List.foldl_cons, hrest, hdone, List.filterMap_cons, List.filterMap_cons]
      cases d.deleted? <;> cases d.failed? <;> simp

/-! ## A push and its rollback -/

/-- A deletion takes back the profile that an exchange created: it is asked for below the place
    where that was, by the identifier that came back. -/
def Deletion.Undoes (d : Deletion) (x : Exchange) : Prop :=
  d.report.OpenedBy x ∧
    d.exchange.call = .delete (x.call.path ++ "/" ++ d.report.profileId.text)

/-- A push of a run is one of its plans, and always ends in a result. -/
theorem Runner.push_of_transformed (m : Manager σ) {r : Runner} {plans : TransformResult}
    (h : r.transformed = some plans) (s : Session σ) :
    r.push m s = (.ok (ProfileMigration.push m plans s).1,
      { r with pushed := some (ProfileMigration.push m plans s).1 },
      (ProfileMigration.push m plans s).2) := by
  rw [push, h]
  dsimp only
  rw [deliver_eq]

/-- A rollback right after a push asks for one deletion of each profile that the push created,
    the last one first, and for nothing else. Each of these profiles is deleted or reported as
    still there, not both, whatever becomes of the others. After that there is no push left to
    take back. -/
theorem Runner.push_rollback (m : Manager σ) (r : Runner) (plans : TransformResult)
    (s : Session σ) :
    let pushed := { r with transformed := some plans }.push m s
    let undone := pushed.2.1.rollback m pushed.2.2
    ∃ (result : PushResult) (xs : List Exchange) (ds : List Deletion),
      pushed.1 = .ok result ∧ m.Leads s xs pushed.2.2 ∧
      m.Leads pushed.2.2 (ds.map Deletion.exchange) undone.2.2 ∧
      List.Forall₂ Deletion.Undoes ds (xs.filter Exchange.isOpening).reverse ∧
      undone.1 = .ok ⟨ds.filterMap Deletion.deleted?, ds.filterMap Deletion.failed?⟩ ∧
      (∀ d ∈ ds, d.deleted?.isSome = !d.failed?.isSome) ∧
      undone.2.1 = { r with transformed := some plans, pushed := none } ∧
      ∀ later : Session σ, undone.2.1.rollback m later =
        (.error (.misuse .nothingToRollBack), undone.2.1, later) := by
  intro pushed undone
  have hpushed : pushed = _ := push_of_transformed m rfl s
  have hundone : undone = pushed.2.1.rollback m pushed.2.2 := rfl
  rw [hundone, hpushed]
  obtain ⟨xs, hpush, hopenings⟩ := push_openings m plans s
  obtain ⟨ds, hreports, hcalls, hrollback, hlists⟩ :=
    rollback_deletes m (ProfileMigration.push m plans s).1 (ProfileMigration.push m plans s).2
  refine ⟨_, xs, ds, rfl, hpush, hrollback, ?_, congrArg Except.ok hlists,
    fun d _ => d.isSome_deleted?, rfl, fun _ => rfl⟩
  -- Each deletion belongs to a report, and each report to a profile that was created
  have hpaired : List.Forall₂ (fun (d : Deletion) x => d.report.OpenedBy x) ds
      (xs.filter Exchange.isOpening).reverse := by
    refine List.forall₂_map_left_iff.mp ?_
    rw [hreports, List.forall₂_reverse_iff]
    exact hopenings
  refine ((List.forall₂_and_left _ _).mpr ⟨hcalls, hpaired⟩).imp ?_
  rintro d x ⟨hcall, hopened⟩
  refine ⟨hopened, ?_⟩
  rw [hcall, BuildReport.profilePath, ProfileType.profilePath, hopened.opens.2.1]

end ProfileMigration
