/-
  ProfileMigration.Proofs.Run.SavedCollection

  Runs that go on from a saved collection:

    CollectedTree.Canonical         -- a collection with definitions in canonical form
    CollectedTree.tree_reloaded     -- a collection is loaded as it was saved, and plans the same
    CollectedTree.tree_misread      -- up to the last bit of a double, and to a depth

  Nothing in a plan depends on the time at which the collection was made.
-/
import ProfileMigration.Plan.Transform
import ProfileMigration.Proofs.Legacy.Reread
import ProfileMigration.Proofs.Run.Artifact
import ProfileMigration.Run.Runner

namespace ProfileMigration

namespace CollectedTree

/-- A collection whose definitions have their members in order, and that was made at a point in
    time that is kept. -/
structure Canonical (t : CollectedTree) : Prop where
  instant : t.collectedAt.isValid = true
  definitions : ∀ o ∈ t.objects, o.definition.canonical = o.definition

/-- A collection reads back from its wire form as it is, but for the time it was made at, and plans
    the same; so it does from a file as well, if its doubles read back from their digits and it
    does not nest too deep. -/
theorem tree_reloaded {t : CollectedTree} (h : t.Canonical) :
    let t' := { t with collectedAt := t.collectedAt.settled }
    Wire.read ofDocument t.toJson = .ok t' ∧
      (∀ ctx mark, transform t' ctx mark = transform t ctx mark) ∧
      (t.toJson.isLegible = true → (Document.ofJson t.toJson).depth ≤ Json.nestingLimit →
        ∀ (r r' : Runner) (directory path : String) (f f' : Folder), r.collected = some t →
          r.save .collected directory f = (.ok path, f') →
            r'.loaded .collected directory f' = .ok { r' with collected := some t' }) := by
  intro t'
  have hread : Wire.read ofDocument t.toJson = .ok t' := ofDocument_toJson h.instant h.definitions
  refine ⟨hread, fun ctx mark => rfl, ?_⟩
  intro hlegible hdepth r r' directory path f f' hr hsave
  have hparse := Artifact.parse_pretty hread hlegible hdepth
  have htext : r.text .collected = .ok t.toJson.pretty := by
    rw [Runner.text, hr]
    rfl
  rw [Runner.loaded, Runner.load_of_save htext hsave hparse]
  rfl

/-! ### Where the text does not read back -/

/-- One banner with a definition, at a site. -/
def ofDefinition (definition : Json) (below : List Attachment) : CollectedTree where
  collectedAt := ⟨1483228799, 1500000000⟩
  featureTemplates := [⟨"banner", "banner", some "", .featureTemplate, "cisco_banner", definition⟩]
  deviceTemplates := [⟨"site", "site", none, [⟨"banner", "cisco_banner", below⟩]⟩]
  policyLists := []
  policyDefinitions := []
  failures := [⟨"other", "other", "not found"⟩]
  cancelled := true

/-- A definition that looks like the object it stands in, with a number for its message. -/
def ambiguousDefinition (message : Number) : Json := .obj [
  ("category", .str "policy_list"),
  ("definition", .null),
  ("description", .arr [.obj [], .num (.int ⟨18446744073709551615, by decide, by decide⟩)]),
  ("motd", .num message)]

/-- A template with the same below it, so many times. -/
def nestedTemplates : Nat → List Attachment
  | 0 => []
  | n + 1 => [⟨"banner", "cisco_banner", nestedTemplates n⟩]

theorem canonical_ofDefinition {definition : Json} (h : definition.canonical = definition)
    (below : List Attachment) : (ofDefinition definition below).Canonical where
  instant := show Instant.isValid ⟨1483228799, 1500000000⟩ = true by decide
  definitions := List.forall_mem_singleton.mpr h

/-- With the double 48.25 in it, a collection made in a leap second is loaded as it was saved. -/
theorem tree_reloaded_ambiguous :
    let t := ofDefinition (ambiguousDefinition (.float ⟨0x4048200000000000⟩ rfl))
      (nestedTemplates 3)
    t.Canonical ∧ t.toJson.isLegible = true ∧
      (Document.ofJson t.toJson).depth ≤ Json.nestingLimit ∧
      ∃ f', Runner.save ⟨"", some t, none, none⟩ .collected "artifacts" .empty =
          (.ok "artifacts/collected.json", f') ∧
        (Runner.start "").loaded .collected "artifacts" f' = .ok ⟨"", some t, none, none⟩ := by
  intro t
  have hcanonical : t.Canonical := canonical_ofDefinition (by decide +kernel) _
  have hlegible : t.toJson.isLegible = true := by decide +kernel
  have hdepth : (Document.ofJson t.toJson).depth ≤ Json.nestingLimit := by decide +kernel
  obtain ⟨-, -, hload⟩ := tree_reloaded hcanonical
  have htext : Runner.text ⟨"", some t, none, none⟩ .collected = .ok t.toJson.pretty := rfl
  obtain ⟨f', hf'⟩ := Runner.save_empty htext
  exact ⟨hcanonical, hlegible, hdepth, f', hf', hload hlegible hdepth _ _ _ _ _ _ rfl hf'⟩

/-- The double 8.886900283223533e-10 is loaded with another last bit, which then is in the message
    of the banner, and templates that nest too deep are not loaded at all. -/
theorem tree_misread :
    let t := ofDefinition (.obj [("motd", .num (.float ⟨0x3e0e89000a4a8fa8⟩ rfl))]) []
    let t' := ofDefinition (.obj [("motd", .num (.float ⟨0x3e0e89000a4a8fa7⟩ rfl))]) []
    let deep := ofDefinition .null (nestedTemplates 62)
    (t.Canonical ∧ ∃ loaded, Artifact.parse ofDocument t.toJson.pretty = some loaded ∧
        loaded.objects = t'.objects ∧
        (transform loaded .empty "").1 ≠ (transform t .empty "").1) ∧
      deep.Canonical ∧ Artifact.parse ofDocument deep.toJson.pretty = none := by
  intro t t' deep
  have hread : ((Artifact.parse ofDocument t.toJson.pretty).map fun loaded =>
      (loaded.objects, (transform loaded .empty "").1)) =
        some (t'.objects, (transform t' .empty "").1) := by
    rw [Artifact.parse, Document.ofText?, Json.pretty, String.toList_ofList]
    decide +kernel
  have hdiffer : (transform t' .empty "").1 ≠ (transform t .empty "").1 := by decide +kernel
  obtain ⟨loaded, hparse, hloaded⟩ := Option.map_eq_some_iff.mp hread
  obtain ⟨hobjects, hresult⟩ := Prod.mk.inj hloaded
  have hlegible : deep.toJson.isLegible = true := by decide +kernel
  refine ⟨⟨canonical_ofDefinition (by decide +kernel) _, loaded, hparse, hobjects, ?_⟩,
    canonical_ofDefinition rfl _, Option.isNone_iff_eq_none.mp ?_⟩
  · rw [hresult]
    exact hdiffer
  · rw [Artifact.parse, Document.ofText?_pretty_within hlegible]
    decide +kernel

end CollectedTree

end ProfileMigration
