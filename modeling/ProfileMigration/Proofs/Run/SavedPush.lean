/-
  ProfileMigration.Proofs.Run.SavedPush

  Results of pushes as they are saved and loaded:

    push_saved          -- a result is loaded with every quote as it reads back
    push_saved_refusal  -- a refusal with an answer is loaded as it was saved
    push_saved_null     -- and an answer of null is loaded as no answer

  All that is lost is what a result quotes from the manager: null, and the last bit of a double.
-/
import ProfileMigration.Manager.Script
import ProfileMigration.Proofs.Delivery.Reread
import ProfileMigration.Proofs.Run.Artifact

namespace ProfileMigration

/-- The result of a push reads back from its wire form, but for the nulls that it quotes, which
    read as nothing: it reads back as it is exactly if it quotes none, and only values with their
    members in order. What it quotes it has been told in answers. It is loaded from a file in the
    same way, if its doubles read back from their digits and it does not nest too deep. -/
theorem push_saved {σ : Type} (m : Manager σ) (plans : TransformResult) (s : Session σ) :
    let r := (push m plans s).1
    Wire.read PushResult.ofDocument r.toJson = .ok r.reread ∧
      (r.reread = r ↔ ∀ j ∈ r.quoted, j ≠ .null ∧ j.canonical = j) ∧
      (∃ xs, m.Leads s xs (push m plans s).2 ∧ ∀ j ∈ r.quoted, ∃ x ∈ xs, j ∈ x.told) ∧
      (r.toJson.isLegible = true → (Document.ofJson r.toJson).depth ≤ Json.nestingLimit →
        ∀ (saver loader : Runner) (directory path : String) (f f' : Folder),
          saver.pushed = some r → saver.save .pushed directory f = (.ok path, f') →
            loader.loaded .pushed directory f' = .ok { loader with pushed := some r.reread }) := by
  intro r
  have hread : Wire.read PushResult.ofDocument r.toJson = .ok r.reread := r.ofDocument_toJson
  obtain ⟨ds, hledger⟩ := push_ledger m plans s
  refine ⟨hread, PushResult.reread_eq_iff, ⟨_, hledger.talk, fun j => hledger.told_of_quoted⟩, ?_⟩
  intro hlegible hdepth saver loader directory path f f' hsaver hsave
  have hparse := Artifact.parse_pretty hread hlegible hdepth
  have htext : saver.text .pushed = .ok r.toJson.pretty := by
    rw [Runner.text, hsaver]
    rfl
  rw [Runner.loaded, Runner.load_of_save htext hsave hparse]
  rfl

/-! ### One banner, answered in several ways -/

/-- A device with one banner. -/
def bannerPlans : TransformResult where
  policyObjects := none
  profiles := [⟨"site", none, .system, [⟨some ⟨9⟩, "banner", none, .banner, []⟩], []⟩]
  failures := []

/-- A manager that creates profiles, and does something else when it is to create the banner. -/
def bannerScript (outcome : Outcome) : Script where
  reads := []
  rules := [⟨⟨some "POST", none, none, some "banner", none⟩, none, outcome⟩]

/-- The push of the banner. -/
def pushBanner (outcome : Outcome) : PushResult :=
  (push (bannerScript outcome).manager bannerPlans (.start (.start (bannerScript outcome)))).1

/-- A refusal whose body holds a double and a null. -/
def refusal : Outcome := .status 400 "\x7b\"code\":48.25,\"hint\":null\x7d"

/-- A null inside an answer is kept: the refusal is loaded as it was saved. -/
theorem push_saved_refusal :
    let r := pushBanner refusal
    r.quoted.length = 2 ∧ r.toJson.isLegible = true ∧
      (Document.ofJson r.toJson).depth ≤ Json.nestingLimit ∧ r.reread = r ∧
      ∃ f', Runner.save ⟨"", none, none, some r⟩ .pushed "artifacts" .empty =
          (.ok "artifacts/pushed.json", f') ∧
        (Runner.start "").loaded .pushed "artifacts" f' = .ok ⟨"", none, none, some r⟩ := by
  intro r
  have hlegible : r.toJson.isLegible = true := by decide +kernel
  have hdepth : (Document.ofJson r.toJson).depth ≤ Json.nestingLimit := by decide +kernel
  have hsame : r.reread = r := by decide +kernel
  obtain ⟨-, -, -, hload⟩ := push_saved (bannerScript refusal).manager bannerPlans
    (.start (.start (bannerScript refusal)))
  have htext : Runner.text ⟨"", none, none, some r⟩ .pushed = .ok r.toJson.pretty := rfl
  obtain ⟨f', hf'⟩ := Runner.save_empty htext
  have hloaded := hload hlegible hdepth _ (.start "") _ _ _ _ rfl hf'
  have hrunner : Runner.mk "" none none (some r.reread) = ⟨"", none, none, some r⟩ := by rw [hsame]
  exact ⟨by decide +kernel, hlegible, hdepth, hsame, f', hf',
    hloaded.trans (congrArg Except.ok hrunner)⟩

/-- An answer of null, in which there is no identifier, is in the report; when that is read back,
    no answer is in it. -/
theorem push_saved_null :
    let r := pushBanner (.reply .null)
    (r.reports.map fun b => b.failed.map FailedItem.response) = [[some .null]] ∧
      ∃ r', Wire.read PushResult.ofDocument r.toJson = .ok r' ∧
        (r'.reports.map fun b => b.failed.map FailedItem.response) = [[none]] ∧ r' ≠ r := by
  intro r
  exact ⟨by decide +kernel, r.reread, r.ofDocument_toJson, by decide +kernel, by decide +kernel⟩

end ProfileMigration
