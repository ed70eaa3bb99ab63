/-
  ProfileMigration.Proofs.Plan.Reread

  Plans read back from their wire form:

    Parcel.reread                       -- a parcel with every value as it reads back
    Parcel.ofDocument_toJson            -- a parcel with ordered fields reads back so
    TransformResult.ofDocument_toJson   -- and so do all parcels of a transform's plans

  Identifiers, names and types read back as they are.
-/
import ProfileMigration.Proofs.Field.Reread
import ProfileMigration.Proofs.Plan.Members
import ProfileMigration.Proofs.Wire.Record

namespace ProfileMigration

open Wire.Gathered (map_ok seq_ok)

/-! ## Parcels -/

namespace ParcelType

theorem ofTag?_tag (t : ParcelType) : ofTag? t.tag = some t := by cases t <;> rfl

theorem ofDocument_toJson (t : ParcelType) : Wire.read ofDocument t.toJson = .ok t :=
  Wire.name_written t.ofTag?_tag

end ParcelType

namespace Parcel

/-- A parcel with every value in its field tree as it reads back. -/
def reread (p : Parcel) : Parcel := { p with data := p.data.reread }

theorem readData_toJson {m : FieldMap} (h : m.Ordered) :
    Wire.read readData m.toJson = .ok m.reread := by
  rw [Wire.read, readData, Wire.written, Document.value?_ofJson]
  simp only [bind, Except.bind, FieldMap.ofJson?_toJson h]

/-- A parcel with ordered fields reads back from its wire form. -/
theorem ofDocument_toJson {p : Parcel} (h : p.data.Ordered) :
    Wire.read ofDocument p.toJson = .ok p.reread := by
  refine Wire.record_written
    (a := Parcel.mk p.id p.name p.description p.type p.data.reread)
    (seq_ok (seq_ok (seq_ok (seq_ok (map_ok ?id) ?name) ?description) ?type) ?data)
  case id => exact Wire.Row.optional_written (by simp) fun id _ => Wire.uuid_written id
  case name => exact Wire.Row.required_written (j := .str p.name) (by simp) rfl
  case description => exact Wire.Row.optional_written (by simp) fun s _ => rfl
  case type => exact Wire.Row.required_written (by simp) p.type.ofDocument_toJson
  case data => exact Wire.Row.required_written (by simp) (readData_toJson h)

end Parcel

/-! ## Plans -/

namespace ParentPlan

theorem ofDocument_toJson {v : ParentPlan} (h : ∀ p ∈ v.members, p.data.Ordered) :
    Wire.read ofDocument v.toJson = .ok (v.mapParcels Parcel.reread) := by
  obtain ⟨hparcel, hchildren⟩ := List.forall_mem_cons.mp h
  refine Wire.record_written (a := ParentPlan.mk v.parcel.reread (v.children.map Parcel.reread))
    (seq_ok (map_ok ?parcel) ?children)
  case parcel => exact Wire.Row.required_written (by simp) (Parcel.ofDocument_toJson hparcel)
  case children =>
    exact Wire.Row.defaulted_written (by simp)
      (Wire.list_written fun p hp => Parcel.ofDocument_toJson (hchildren p hp))

end ParentPlan

namespace ProfileType

theorem ofTag?_tag (t : ProfileType) : ofTag? t.tag = some t := by cases t <;> rfl

theorem ofDocument_toJson (t : ProfileType) : Wire.read ofDocument t.toJson = .ok t :=
  Wire.name_written t.ofTag?_tag

end ProfileType

namespace ProfilePlan

theorem ofDocument_toJson {plan : ProfilePlan} (h : ∀ p ∈ plan.members, p.data.Ordered) :
    Wire.read ofDocument plan.toJson = .ok (plan.mapParcels Parcel.reread) := by
  obtain ⟨hparcels, hparents⟩ := List.forall_mem_append.mp h
  refine Wire.record_written (a := ProfilePlan.mk plan.name plan.description plan.type
      (plan.parcels.map Parcel.reread) (plan.parents.map (ParentPlan.mapParcels Parcel.reread)))
    (seq_ok (seq_ok (seq_ok (seq_ok (map_ok ?name) ?description) ?type) ?parcels) ?parents)
  case name => exact Wire.Row.required_written (j := .str plan.name) (by simp) rfl
  case description => exact Wire.Row.optional_written (by simp) fun s _ => rfl
  case type => exact Wire.Row.required_written (by simp) plan.type.ofDocument_toJson
  case parcels =>
    exact Wire.Row.defaulted_written (by simp)
      (Wire.list_written fun p hp => Parcel.ofDocument_toJson (hparcels p hp))
  case parents =>
    have hread : ∀ v ∈ plan.parents,
        Wire.read ParentPlan.ofDocument v.toJson = .ok (v.mapParcels Parcel.reread) :=
      fun v hv => ParentPlan.ofDocument_toJson fun p hp =>
        hparents p (List.mem_flatMap.mpr ⟨v, hv, hp⟩)
    exact Wire.Row.defaulted_written (by simp) (Wire.list_written hread)

end ProfilePlan

/-! ## Transforms -/

theorem TransformFailure.ofDocument_toJson (f : TransformFailure) :
    Wire.read ofDocument f.toJson = .ok f := by
  refine Wire.record_written
    (a := TransformFailure.mk f.origin f.name f.category f.kind f.error)
    (seq_ok (seq_ok (seq_ok (seq_ok (map_ok ?origin) ?name) ?category) ?kind) ?error)
  case origin => exact Wire.Row.required_written (j := .str f.origin) (by simp) rfl
  case name => exact Wire.Row.required_written (j := .str f.name) (by simp) rfl
  case category =>
    exact Wire.Row.required_written (j := .str f.category.text) (by simp)
      (Wire.name_written f.category.ofText?_text)
  case kind => exact Wire.Row.required_written (j := .str f.kind) (by simp) rfl
  case error => exact Wire.Row.required_written (j := .str f.error) (by simp) rfl

namespace TransformResult

/-- A transform with ordered fields reads back from its wire form. -/
theorem ofDocument_toJson {r : TransformResult}
    (h : ∀ plan ∈ r.plans, ∀ p ∈ plan.members, p.data.Ordered) :
    Wire.read ofDocument r.toJson = .ok (r.mapParcels Parcel.reread) := by
  obtain ⟨hshared, hprofiles⟩ := List.forall_mem_append.mp h
  refine Wire.record_written
    (a := TransformResult.mk (r.policyObjects.map (ProfilePlan.mapParcels Parcel.reread))
      (r.profiles.map (ProfilePlan.mapParcels Parcel.reread)) r.failures)
    (seq_ok (seq_ok (map_ok ?policyObjects) ?profiles) ?failures)
  case policyObjects =>
    have hread : ∀ plan, r.policyObjects = some plan →
        Wire.read ProfilePlan.ofDocument plan.toJson = .ok (plan.mapParcels Parcel.reread) :=
      fun plan hplan => ProfilePlan.ofDocument_toJson (hshared plan (Option.mem_toList.mpr hplan))
    have hnull : ∀ plan : ProfilePlan, plan.toJson ≠ .null := fun plan => nofun
    exact Wire.Row.optional_written_null (by simp) hnull hread
  case profiles =>
    exact Wire.Row.defaulted_written (by simp)
      (Wire.list_written fun plan hplan => ProfilePlan.ofDocument_toJson (hprofiles plan hplan))
  case failures =>
    exact Wire.Row.defaulted_written (by simp)
      (Wire.list_written_self fun f _ => f.ofDocument_toJson)

end TransformResult

end ProfileMigration
