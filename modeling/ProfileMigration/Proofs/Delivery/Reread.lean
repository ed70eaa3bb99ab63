/-
  ProfileMigration.Proofs.Delivery.Reread

  Results of pushes read back from their wire form:

    Exchange.told                   -- the values in an answer, be it a failure or not
    PushResult.quoted               -- the values that a result quotes from answers
    PushResult.reread               -- a result as it reads back
    PushResult.ofDocument_toJson    -- every result reads back so
    PushResult.reread_eq_iff        -- and as it is exactly if it quotes no null
    Ledger.told_of_quoted           -- what a push quotes it has been told

  A quoted value is left out when there is none. Null is another thing than none for those who
  write it, and the same for those who read it.
-/
import ProfileMigration.Proofs.Delivery.Ledger
import ProfileMigration.Proofs.Plan.Reread

namespace ProfileMigration

open Wire.Gathered (map_ok seq_ok)

/-! ## Quoted values -/

/-- The values in an answer. -/
def Exchange.told (x : Exchange) : List Json :=
  match x.answer with
  | .ok answer => [answer]
  | .error e => e.request.toList ++ e.response.toList

/-- The values that the entry of a failed parcel quotes: what was sent, and what came back. -/
def FailedItem.quoted (f : FailedItem) : List Json := f.request.toList ++ f.response.toList

/-- The values that a report quotes. -/
def BuildReport.quoted (r : BuildReport) : List Json := r.failed.flatMap FailedItem.quoted

/-- The values that the result of a push quotes. -/
def PushResult.quoted (r : PushResult) : List Json := r.reports.flatMap BuildReport.quoted

/-! ## Reports -/

theorem CreatedItem.ofDocument_toJson (c : CreatedItem) :
    Wire.read ofDocument c.toJson = .ok c := by
  refine Wire.record_written (a := CreatedItem.mk c.name c.type c.id c.origin)
    (seq_ok (seq_ok (seq_ok (map_ok ?name) ?type) ?id) ?origin)
  case name => exact Wire.Row.required_written (j := .str c.name) (by simp) rfl
  case type => exact Wire.Row.required_written (by simp) c.type.ofDocument_toJson
  case id => exact Wire.Row.required_written (by simp) (Wire.uuid_written c.id)
  case origin => exact Wire.Row.optional_written (by simp) fun id _ => Wire.uuid_written id

namespace FailedItem

/-- An entry with its quotes as they read back. -/
def reread (f : FailedItem) : FailedItem :=
  { f with request := Wire.rereadValue f.request, response := Wire.rereadValue f.response }

theorem ofDocument_toJson (f : FailedItem) : Wire.read ofDocument f.toJson = .ok f.reread := by
  refine Wire.record_written (a := FailedItem.mk f.name f.type f.error (Wire.rereadValue f.request)
      (Wire.rereadValue f.response))
    (seq_ok (seq_ok (seq_ok (seq_ok (map_ok ?name) ?type) ?error) ?request) ?response)
  case name => exact Wire.Row.required_written (j := .str f.name) (by simp) rfl
  case type => exact Wire.Row.required_written (by simp) f.type.ofDocument_toJson
  case error => exact Wire.Row.required_written (j := .str f.error) (by simp) rfl
  case request => exact Wire.Row.optional_written_json (by simp)
  case response => exact Wire.Row.optional_written_json (by simp)

theorem reread_eq_iff {f : FailedItem} :
    f.reread = f ↔ ∀ j ∈ f.quoted, j ≠ .null ∧ j.canonical = j := by
  rw [quoted, List.forall_mem_append, ← Wire.rereadValue_eq_iff, ← Wire.rereadValue_eq_iff]
  obtain ⟨name, type, error, request, response⟩ := f
  simp [reread]

end FailedItem

namespace BuildReport

/-- A report with every quote as it reads back. -/
def reread (r : BuildReport) : BuildReport := { r with failed := r.failed.map FailedItem.reread }

theorem ofDocument_toJson (r : BuildReport) : Wire.read ofDocument r.toJson = .ok r.reread := by
  refine Wire.record_written (a := BuildReport.mk r.profileName r.profileType r.profileId r.created
      (r.failed.map FailedItem.reread))
    (seq_ok (seq_ok (seq_ok (seq_ok (map_ok ?name) ?type) ?id) ?created) ?failed)
  case name => exact Wire.Row.required_written (j := .str r.profileName) (by simp) rfl
  case type => exact Wire.Row.required_written (by simp) r.profileType.ofDocument_toJson
  case id => exact Wire.Row.required_written (by simp) (Wire.uuid_written r.profileId)
  case created =>
    exact Wire.Row.required_written (by simp)
      (Wire.list_written_self fun c _ => c.ofDocument_toJson)
  case failed =>
    exact Wire.Row.required_written (by simp) (Wire.list_written fun f _ => f.ofDocument_toJson)

theorem reread_eq_iff {r : BuildReport} :
    r.reread = r ↔ ∀ j ∈ r.quoted, j ≠ .null ∧ j.canonical = j := by
  have hfailed : r.reread = r ↔ r.failed.map FailedItem.reread = r.failed := by
    obtain ⟨name, type, id, created, failed⟩ := r
    simp [reread]
  rw [hfailed, map_eq_self_iff, quoted, List.forall_mem_flatMap]
  simp only [FailedItem.reread_eq_iff]

end BuildReport

theorem ProfileFailure.ofDocument_toJson (f : ProfileFailure) :
    Wire.read ofDocument f.toJson = .ok f := by
  refine Wire.record_written (a := ProfileFailure.mk f.name f.type f.error)
    (seq_ok (seq_ok (map_ok ?name) ?type) ?error)
  case name => exact Wire.Row.required_written (j := .str f.name) (by simp) rfl
  case type => exact Wire.Row.required_written (by simp) f.type.ofDocument_toJson
  case error => exact Wire.Row.required_written (j := .str f.error) (by simp) rfl

namespace PushResult

/-- A result with every quote as it reads back. -/
def reread (r : PushResult) : PushResult := { r with reports := r.reports.map BuildReport.reread }

/-- The result of a push reads back with every quote as it reads back, and all else as it is. -/
theorem ofDocument_toJson (r : PushResult) : Wire.read ofDocument r.toJson = .ok r.reread := by
  refine Wire.record_written
    (a := PushResult.mk (r.reports.map BuildReport.reread) r.failures r.cancelled)
    (seq_ok (seq_ok (map_ok ?reports) ?failures) ?cancelled)
  case reports =>
    exact Wire.Row.required_written (by simp) (Wire.list_written fun b _ => b.ofDocument_toJson)
  case failures =>
    exact Wire.Row.required_written (by simp)
      (Wire.list_written_self fun f _ => f.ofDocument_toJson)
  case cancelled => exact Wire.Row.defaulted_written (j := .bool r.cancelled) (by simp) rfl

/-- A result reads back as it is exactly if it quotes no null, and only values with their members
    in order. -/
theorem reread_eq_iff {r : PushResult} :
    r.reread = r ↔ ∀ j ∈ r.quoted, j ≠ .null ∧ j.canonical = j := by
  have hreports : r.reread = r ↔ r.reports.map BuildReport.reread = r.reports := by
    obtain ⟨reports, failures, cancelled⟩ := r
    simp [reread]
  rw [hreports, map_eq_self_iff, quoted, List.forall_mem_flatMap]
  simp only [BuildReport.reread_eq_iff]

end PushResult

/-! ## Where quotes come from -/

/-- What is quoted of a refusal has been told. -/
theorem Sent.told_of_refused {ids : RemoteIds} {path : String} {p : Parcel} {x : Exchange}
    {e : TransportError} (h : Sent ids path p (.refused x e)) {j : Json}
    (hj : j ∈ e.request.toList ++ e.response.toList) : j ∈ x.told := by
  cases h with
  | failed _ => exact hj
  | nameless _ _ => exact hj

namespace Turn.Lawful

variable {ids : RemoteIds} {base : String} {earlier : List Turn} {t : Turn}

/-- A parcel that was refused has been sent. -/
theorem sent_of_refused (h : t.Lawful ids base earlier) {x : Exchange} {e : TransportError}
    (hfate : t.fate = .refused x e) :
    ∃ path, Sent (known ids earlier) path t.parcel (.refused x e) := by
  cases h with
  | alone h | parent h | nested _ _ _ h | unbound _ _ _ h _ =>
    obtain rfl := hfate
    exact ⟨_, h⟩
  | orphan _ | bereft _ _ | bound _ _ _ _ _ => cases hfate

/-- What the entries of a turn quote has been told in the turn. -/
theorem told_of_quoted (h : t.Lawful ids base earlier) {f : FailedItem} (hf : f ∈ t.failedItems)
    {j : Json} (hj : j ∈ f.quoted) : ∃ x ∈ t.exchanges, j ∈ x.told := by
  rcases List.mem_append.mp hf with hf | hf
  · -- A parcel that was not sent quotes nothing
    have hf := Option.mem_toList.mp hf
    rw [creationFailure?] at hf
    split at hf
    · obtain rfl := Option.some.inj hf
      exact absurd hj List.not_mem_nil
    · rename_i x e hfate
      obtain rfl := Option.some.inj hf
      obtain ⟨path, hsent⟩ := h.sent_of_refused hfate
      refine ⟨x, ?_, hsent.told_of_refused hj⟩
      rw [exchanges, hfate]
      exact List.mem_cons_self
    · cases hf
    · cases hf
  · obtain ⟨binding, hbinding, hf⟩ := Option.bind_eq_some_iff.mp (Option.mem_toList.mp hf)
    split at hf
    · cases hf
    · rename_i e hanswer
      obtain rfl := Option.some.inj hf
      refine ⟨binding, List.mem_append_right _ (Option.mem_toList.mpr hbinding), ?_⟩
      rw [Exchange.told, hanswer]
      exact hj

end Turn.Lawful

/-- What the result of a push quotes has been told in the push. -/
theorem Ledger.told_of_quoted {σ : Type} {m : Manager σ} {plans : TransformResult} {s : Session σ}
    {ds : List Delivery} {pushed : PushResult × Session σ} (h : Ledger m plans s ds pushed)
    {j : Json} (hj : j ∈ pushed.1.quoted) : ∃ x ∈ ds.flatMap Delivery.exchanges, j ∈ x.told := by
  obtain ⟨report, hreport, hquoted⟩ := List.mem_flatMap.mp hj
  obtain ⟨f, hf, hentry⟩ := List.mem_flatMap.mp hquoted
  rw [h.reports] at hreport
  obtain ⟨d, hd, hmade⟩ := List.mem_filterMap.mp hreport
  obtain ⟨before, after, hsplit⟩ := List.append_of_mem hd
  have hlawful := (h.lawful before d after hsplit).2
  -- Only a profile that was created has a report, which is on the turns of its parcels
  cases houtcome : d.outcome with
  | error e =>
    rw [Delivery.report?, houtcome] at hmade
    cases hmade
  | ok made =>
    obtain ⟨own, turns⟩ := made
    rw [Delivery.report?, houtcome] at hmade
    obtain rfl : own = report := Option.some.inj hmade
    rw [houtcome] at hlawful
    obtain ⟨-, -, -, haccount⟩ := hlawful
    rw [haccount.failed] at hf
    obtain ⟨t, ht, hf⟩ := List.mem_flatMap.mp hf
    obtain ⟨earlier, later, hturns⟩ := List.append_of_mem ht
    obtain ⟨x, hx, htold⟩ := (haccount.lawful earlier t later hturns).told_of_quoted hf hentry
    refine ⟨x, List.mem_flatMap.mpr ⟨d, hd, List.mem_cons_of_mem _ ?_⟩, htold⟩
    rw [Delivery.turns, houtcome]
    exact List.mem_flatMap.mpr ⟨t, ht, hx⟩

end ProfileMigration
