/-
  ProfileMigration.Proofs.Field.Leaves

  The values in a field tree, and what binding does to them:

    Field.leaves / FieldMap.leaves  -- every value, in order
    TypedValue.Becomes              -- a value and what stands in its place when it is bound
    FieldMap.leaves_of_bind         -- binding goes through a tree value by value
-/
import Mathlib.Data.List.Forall2
import ProfileMigration.Proofs.Field.ReferenceBounds

namespace ProfileMigration

namespace Field

mutual

/-- The values below a field, in order. -/
def leaves : Field → List TypedValue
  | .value v => [v]
  | .group fields => leavesOf fields
  | .items rows => leavesOfRows rows

/-- The values below named fields, in order. -/
def leavesOf : List (String × Field) → List TypedValue
  | [] => []
  | (_, f) :: rest => leaves f ++ leavesOf rest

/-- The values below items, in order. -/
def leavesOfRows : List (List (String × Field)) → List TypedValue
  | [] => []
  | row :: rest => leavesOf row ++ leavesOfRows rest

end

end Field

/-- The values in a field tree, in order. -/
def FieldMap.leaves (m : FieldMap) : List TypedValue := Field.leavesOf m

/-- A value, and what stands in its place when objects have these remote identifiers: the text
    of the identifier for a reference, and any other value itself. -/
def TypedValue.Becomes (remote : Uuid → Option Uuid) (v w : TypedValue) : Prop :=
  match v.objectId? with
  | none => w = v
  | some r => ∃ id, remote r = some id ∧ w = .text id.text

namespace Field

variable {ids : RemoteIds}

mutual

/-- Binding goes through the values below a field one by one. -/
theorem leaves_of_bind : ∀ {f g : Field}, f.bind ids = .ok g →
    List.Forall₂ (TypedValue.Becomes ids.get?) f.leaves g.leaves
  | .value v, g, h => by
    have hone : ∀ w, TypedValue.Becomes ids.get? v w →
        List.Forall₂ (TypedValue.Becomes ids.get?) (value v).leaves (value w).leaves :=
      fun w hw => .cons hw .nil
    rw [bind] at h
    split at h
    · rename_i hid
      obtain rfl := Except.ok.inj h
      exact hone v (by rw [TypedValue.Becomes, hid])
    · rename_i r hid
      split at h
      · rename_i id hremote
        obtain rfl := Except.ok.inj h
        refine hone _ ?_
        rw [TypedValue.Becomes, hid]
        exact ⟨id, hremote, rfl⟩
      · cases h
  | .group fields, g, h => by
    rw [bind] at h
    obtain ⟨bound, hbound, rfl⟩ := map_eq_ok h
    exact leavesOf_of_bindFields hbound
  | .items rows, g, h => by
    rw [bind] at h
    obtain ⟨bound, hbound, rfl⟩ := map_eq_ok h
    exact leavesOfRows_of_bindRows hbound

theorem leavesOf_of_bindFields : ∀ {fs gs : List (String × Field)}, bindFields ids fs = .ok gs →
    List.Forall₂ (TypedValue.Becomes ids.get?) (leavesOf fs) (leavesOf gs)
  | [], gs, h => by
    obtain rfl := Except.ok.inj h
    exact .nil
  | (k, f) :: rest, gs, h => by
    rw [bindFields] at h
    split at h
    · cases h
    · rename_i g hg
      obtain ⟨bound, hbound, rfl⟩ := map_eq_ok h
      exact List.rel_append (leaves_of_bind hg) (leavesOf_of_bindFields hbound)

theorem leavesOfRows_of_bindRows : ∀ {rs qs : List (List (String × Field))},
    bindRows ids rs = .ok qs →
      List.Forall₂ (TypedValue.Becomes ids.get?) (leavesOfRows rs) (leavesOfRows qs)
  | [], qs, h => by
    obtain rfl := Except.ok.inj h
    exact .nil
  | row :: rest, qs, h => by
    rw [bindRows] at h
    split at h
    · cases h
    · rename_i q hq
      obtain ⟨bound, hbound, rfl⟩ := map_eq_ok h
      exact List.rel_append (leavesOf_of_bindFields hq) (leavesOfRows_of_bindRows hbound)

end

end Field

/-- Binding goes through a tree value by value. -/
theorem FieldMap.leaves_of_bind {ids : RemoteIds} {m data : FieldMap}
    (h : m.bind ids = .ok data) :
    List.Forall₂ (TypedValue.Becomes ids.get?) m.leaves data.leaves :=
  Field.leavesOf_of_bindFields h

end ProfileMigration
