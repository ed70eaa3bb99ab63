/-
  ProfileMigration.Proofs.Template.References

  Where the references of a converted parcel come from:

    Context.ResolvesPolicy      -- the identifiers of policies and their lists in a context
    references_of_convert       -- references are to those, or are variables called like an
                                   identifier
    convert_namedOspf           -- a variable that is called like one

  References and device variables are one kind of value, told apart by whether the text reads
  as an identifier. Nothing else in a definition is ever taken for a reference, and neither is
  the name that the mask of an address gets from that of its variable.
-/
import ProfileMigration.Proofs.Plan.ReferenceClosure

namespace ProfileMigration

/-- An identifier that a context gives for a policy list or a policy definition. -/
def Context.ResolvesPolicy (c : Context) (id : Uuid) : Prop :=
  ∃ category origin, (category = .policyList ∨ category = .policyDefinition) ∧
    c.resolve category origin = some id

theorem Targeted.resolvesPolicy {c : Context} {type : ParcelType} {id : Uuid}
    (h : Targeted c type id) : c.ResolvesPolicy id := by
  obtain ⟨category, origin, htarget, hresolve⟩ := h
  exact ⟨category, origin, ParcelType.category_of_target? htarget, hresolve⟩

/-- A converted object refers to policies and lists that the context resolves. Beside these only
    a device variable can be taken for a reference, and only one whose name reads as an
    identifier: without such a variable the context resolves everything. -/
theorem references_of_convert {o : LegacyObject} {id : Uuid} {c : Context} {p : Parcel}
    (h : convert o id c = .ok p) :
    (∀ r ∈ p.references, c.ResolvesPolicy r ∨
      ∃ name ∈ Legacy.variableNames o.definition, Uuid.ofText? name = some r) ∧
    ((∀ name ∈ Legacy.variableNames o.definition, Uuid.ofText? name = none) →
      ∀ r ∈ p.references, c.ResolvesPolicy r) := by
  constructor
  · intro r hr
    exact (targeted_or_named_of_convert h hr).imp_left Targeted.resolvesPolicy
  · intro hnames r hr
    exact (targeted_of_convert hnames h hr).resolvesPolicy

/-- A protocol that takes routes by a policy, and whose router is named by a device variable. -/
def namedOspf : LegacyObject :=
  ⟨"o", "ospf", none, .featureTemplate, "cisco_ospf", .obj [("ospf", .obj [
    ("route-policy", .arr [.obj [("pol-name", .str "p")]]),
    ("router-id", .obj [("vipType", .str "variableName"),
      ("vipVariableName", .str "00000000-0000-4000-8000-000000000001")])])]⟩

/-- The identifier that the variable of `namedOspf` is called. -/
def namedOspfVariable : Uuid := ⟨0x00000000_0000_4000_8000_000000000001#128⟩

theorem convert_namedOspf_references :
    (convert namedOspf (generatedId .featureTemplate "o")
      (Context.empty.register .policyDefinition "p").2).map Parcel.references =
        .ok [generatedId .policyDefinition "p", namedOspfVariable] := by
  decide +kernel

/-- The variable is taken for a reference, though the context resolves nothing to it. -/
theorem convert_namedOspf :
    let c : Context := (Context.empty.register .policyDefinition "p").2
    ∃ p, convert namedOspf (generatedId .featureTemplate "o") c = .ok p ∧
      namedOspfVariable ∈ p.references ∧ ¬ c.ResolvesPolicy namedOspfVariable := by
  intro c
  obtain ⟨p, hp, hreferences⟩ := map_eq_ok convert_namedOspf_references
  have hmem : namedOspfVariable ∈ p.references := by
    rw [hreferences]
    exact List.mem_cons_of_mem _ List.mem_cons_self
  refine ⟨p, hp, hmem, ?_⟩
  rintro ⟨category, origin, -, hresolve⟩
  -- The one identifier that the context gives is generated from the name of the policy
  rw [Context.resolve_register] at hresolve
  split at hresolve
  · have hother : (Context.empty.register .policyDefinition "p" : Uuid × Context).1 ≠
        namedOspfVariable := by
      decide +kernel
    exact hother (Option.some.inj hresolve)
  · cases hresolve

/-- The other reference of the protocol is to its policy. -/
theorem references_of_convert_namedOspf :
    let c : Context := (Context.empty.register .policyDefinition "p").2
    ∃ p, convert namedOspf (generatedId .featureTemplate "o") c = .ok p ∧
      p.references = [generatedId .policyDefinition "p", namedOspfVariable] ∧
      ∀ r ∈ p.references, c.ResolvesPolicy r ∨
        ∃ name ∈ Legacy.variableNames namedOspf.definition, Uuid.ofText? name = some r := by
  intro c
  obtain ⟨p, hp, hreferences⟩ := map_eq_ok convert_namedOspf_references
  obtain ⟨hsources, -⟩ := references_of_convert hp
  exact ⟨p, hp, hreferences, hsources⟩

end ProfileMigration
