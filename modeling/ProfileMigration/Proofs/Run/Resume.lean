/-
  ProfileMigration.Proofs.Run.Resume

  Runs that go on from a saved transform:

    TransformResult.isStable    -- every value of every parcel is written as it was read
    Parcel.alike_reread         -- a build does not tell a stable parcel from what it reads as
    push_reloaded               -- a stable transform is pushed alike before and after reloading
    push_respelled              -- a text that is not stable is pushed in another spelling

  A saved transform can be read back if its doubles read back from their digits and it does not
  nest too deep. What is then sent may differ in texts that look like addresses, and in values
  that no rule of conversion recognised.
-/
import ProfileMigration.Proofs.Delivery.Congruence
import ProfileMigration.Proofs.Delivery.Families
import ProfileMigration.Proofs.Plan.Reread
import ProfileMigration.Proofs.Run.Artifact
import ProfileMigration.Proofs.Template.Order

namespace ProfileMigration

/-- Every value of every parcel in the plans is written as before when it has been read back. -/
def TransformResult.isStable (r : TransformResult) : Bool :=
  r.plans.all fun plan => plan.members.all fun p => p.data.isStable

/-- A build does not tell a parcel of stable values from the one that it reads back as. -/
theorem Parcel.alike_reread {p : Parcel} (h : p.data.isStable = true) : p.reread.Alike p where
  id := rfl
  name := rfl
  type := rfl
  request ids := by
    have hsent : ∀ q : Parcel, q.request ids = ((q.data.bind ids).map FieldMap.toJson).map
        fun data => .obj ([("data", data)] ++ Wire.member? "description" (q.description.map .str) ++
          [("name", .str q.name)]) := by
      intro q
      rw [request]
      cases q.data.bind ids <;> rfl
    rw [hsent, hsent, reread, FieldMap.bind_reread h]

/-- Every parcel in the plans of a transform is ordered. -/
theorem ordered_of_mem_members {tree : CollectedTree} {ctx : Context} {mark : String} :
    ∀ plan ∈ (transform tree ctx mark).1.plans, ∀ p ∈ plan.members, p.data.Ordered := by
  intro plan hplan p hp
  obtain ⟨o, id, ctx', hconvert⟩ := made_of_mem_members hplan p hp
  exact ordered_of_convert hconvert

/-- The text of a transform reads back, with every value as it reads back, if its doubles do and
    it does not nest too deep. -/
theorem parse_pretty_transform (tree : CollectedTree) (ctx : Context) (mark : String) :
    let r := (transform tree ctx mark).1
    r.toJson.isLegible = true → (Document.ofJson r.toJson).depth ≤ Json.nestingLimit →
      Artifact.parse TransformResult.ofDocument r.toJson.pretty =
        some (r.mapParcels Parcel.reread) := by
  intro r
  exact Artifact.parse_pretty (TransformResult.ofDocument_toJson ordered_of_mem_members)

/-- Resuming from a saved transform: if the doubles in it read back and it does not nest too
    deep, it can be loaded; and if every value in it is stable, what is loaded is pushed like
    what was saved, call by call and with the same result, whatever the manager answers. -/
theorem push_reloaded (tree : CollectedTree) (ctx : Context) (mark : String) :
    let r := (transform tree ctx mark).1
    r.toJson.isLegible = true → (Document.ofJson r.toJson).depth ≤ Json.nestingLimit →
      ∃ r', Artifact.parse TransformResult.ofDocument r.toJson.pretty = some r' ∧
        (r.isStable = true → ∀ {σ : Type} (m : Manager σ) (s : Session σ),
          push m r' s = push m r s) := by
  intro r hlegible hdepth
  refine ⟨_, parse_pretty_transform tree ctx mark hlegible hdepth, fun hstable σ m s => ?_⟩
  refine push_mapParcels m (fun plan hplan p hp => Parcel.alike_reread ?_) s
  exact List.all_eq_true.mp (List.all_eq_true.mp hstable plan hplan) p hp

/-! ## A message that looks like an address -/

/-- A device with a message of the day, a position and a time zone that is a variable. -/
def messageTree (message : String) : CollectedTree where
  collectedAt := ⟨0, 0⟩
  featureTemplates := [
    ⟨"b", "banner", none, .featureTemplate, "cisco_banner", .obj [("motd", .str message)]⟩,
    ⟨"s", "system", some "site", .featureTemplate, "cisco_system", .obj [
      ("timezone", .obj [("vipType", .str "variableName"), ("vipVariableName", .str "zone")]),
      ("gps-location", .obj [("latitude", .str "48.25")])]⟩]
  deviceTemplates := [⟨"d", "site", none, [⟨"b", "cisco_banner", []⟩, ⟨"s", "cisco_system", []⟩]⟩]
  policyLists := []
  policyDefinitions := []
  failures := []
  cancelled := false

/-- A message in the spelling of addresses is loaded as an address and sent as it was. -/
theorem push_reloaded_spelled :
    let r := (transform (messageTree "2001:db8::1") .empty "new_").1
    r.toJson.isLegible = true ∧ (Document.ofJson r.toJson).depth ≤ Json.nestingLimit ∧
      r.isStable = true ∧
      ∃ r', Artifact.parse TransformResult.ofDocument r.toJson.pretty = some r' ∧
        ∀ {σ : Type} (m : Manager σ) (s : Session σ), push m r' s = push m r s := by
  intro r
  have hlegible : r.toJson.isLegible = true := by decide +kernel
  have hdepth : (Document.ofJson r.toJson).depth ≤ Json.nestingLimit := by decide +kernel
  have hstable : r.isStable = true := by decide +kernel
  obtain ⟨r', hr', hpush⟩ := push_reloaded (messageTree "2001:db8::1") .empty "new_" hlegible hdepth
  exact ⟨hlegible, hdepth, hstable, r', hr', hpush hstable⟩

/-- The body that creates the banner with a message. -/
def bannerBody (message : String) : Json :=
  .obj [("data", FieldMap.toJson [("login", .text ""), ("motd", .text message)]),
    ("name", .str "banner")]

/-- A message in another spelling is loaded as an address as well, and sent in the spelling of
    addresses. -/
theorem push_respelled :
    let r := (transform (messageTree "2001:DB8::1") .empty "").1
    let path := Build.pathBelow (ProfileType.profilePath .system ⟨1⟩) .banner
    (push numberingManager r (.start 1)).2.calls[1]? =
        some (.create path (bannerBody "2001:DB8::1")) ∧
      ∃ r', Artifact.parse TransformResult.ofDocument r.toJson.pretty = some r' ∧
        (push numberingManager r' (.start 1)).2.calls[1]? =
          some (.create path (bannerBody "2001:db8::1")) := by
  intro r path
  have hlegible : r.toJson.isLegible = true := by decide +kernel
  have hdepth : (Document.ofJson r.toJson).depth ≤ Json.nestingLimit := by decide +kernel
  refine ⟨by decide +kernel, _, parse_pretty_transform _ _ _ hlegible hdepth, ?_⟩
  decide +kernel

end ProfileMigration
