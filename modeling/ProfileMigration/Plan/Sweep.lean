/-
  ProfileMigration.Plan.Sweep

  Converting all objects of a tree, whatever order they refer to each other in:

    Origin              -- what identifies an object: its family and legacy id
    Parcels             -- the parcels made so far, by origin
    Sweep               -- the state: context, parcels, failures, and what is still to do
    Sweep.visit         -- one object
    Sweep.pass          -- one pass over what is to do
    Sweep.run           -- passes until one makes no progress

  An object that refers to one not converted yet waits for the next pass. A pass makes
  progress when it converts an object of a new origin.

  This models `convert_all`: `Sweep.waiting` is what it has `deferred`, and `failure` is
  `TransformFailure.ofObject`.
-/
import ProfileMigration.Plan.Basic
import ProfileMigration.Template.Conversion

namespace ProfileMigration

/-- What identifies a legacy object. -/
abbrev Origin := Category × String

/-- What identifies an object. -/
def LegacyObject.origin (o : LegacyObject) : Origin := (o.category, o.id)

/-- What is reported of an object that cannot be converted. -/
def TransformFailure.ofObject (o : LegacyObject) (e : ConversionError) : TransformFailure :=
  ⟨o.id, o.name, o.category, o.kind, e.message⟩

/-- Parcels by origin, each origin once, in order of first conversion. -/
abbrev Parcels := Entries Origin Parcel

/-- An object that waits for another one, and what it waits for. -/
structure Waiting where
  object : LegacyObject
  cause : ConversionError

/-- The state of converting everything. -/
structure Sweep where
  ctx : Context
  parcels : Parcels
  failures : List TransformFailure
  /-- The objects to try again, in order. -/
  waiting : List Waiting

namespace Sweep

/-- Tries one object. -/
def visit (s : Sweep) (o : LegacyObject) : Sweep :=
  match convert o (generatedId o.category o.id) s.ctx with
  | .ok p =>
    { s with
      ctx := (s.ctx.register o.category o.id).2
      parcels := s.parcels.assign o.origin p }
  | .error e =>
    if e.deferred then { s with waiting := s.waiting ++ [⟨o, e⟩] }
    else { s with failures := s.failures ++ [.ofObject o e] }

/-- Tries objects in order; those that have to wait are collected anew. -/
def pass (s : Sweep) (objects : List LegacyObject) : Sweep :=
  objects.foldl visit { s with waiting := [] }

/-- The state before anything is converted. -/
def start (ctx : Context) : Sweep := ⟨ctx, [], [], []⟩

/-- Gives up on the objects that still wait. -/
def settle (s : Sweep) : Sweep :=
  { s with
    failures := s.failures ++ s.waiting.map fun w => .ofObject w.object w.cause
    waiting := [] }

/-- One object makes at most one more wait, and none if it gives a parcel of a new origin. -/
theorem visit_bound (s : Sweep) (o : LegacyObject) :
    (s.visit o).waiting.length ≤ s.waiting.length + 1 ∧
      (s.waiting.length < (s.visit o).waiting.length → (s.visit o).parcels = s.parcels) := by
  unfold visit
  split
  · simp
  · split <;> simp

/-- As many objects wait as were tried only if no parcel was made. -/
theorem foldl_visit_bound (objects : List LegacyObject) (s : Sweep) :
    (objects.foldl visit s).waiting.length ≤ s.waiting.length + objects.length ∧
      (s.waiting.length + objects.length ≤ (objects.foldl visit s).waiting.length →
        (objects.foldl visit s).parcels = s.parcels) := by
  induction objects generalizing s with
  | nil => simp
  | cons o rest ih =>
    obtain ⟨hle, heq⟩ := visit_bound s o
    obtain ⟨hle', heq'⟩ := ih (s.visit o)
    simp only [List.foldl_cons, List.length_cons]
    constructor
    · omega
    · intro h
      rw [heq' (by omega), heq (by omega)]

/-- A pass that makes progress leaves fewer objects than it tried. -/
theorem length_waiting_pass_lt {s : Sweep} {objects : List LegacyObject}
    (h : s.parcels.length < (s.pass objects).parcels.length) :
    (s.pass objects).waiting.length < objects.length := by
  obtain ⟨hle, heq⟩ := foldl_visit_bound objects { s with waiting := [] }
  simp only [List.length_nil, Nat.zero_add] at hle heq
  have hlt : ¬ objects.length ≤ (s.pass objects).waiting.length := by
    intro hge
    have := heq hge
    unfold pass at h
    rw [this] at h
    exact absurd h (Nat.lt_irrefl _)
  omega

/-- Passes over objects until none waits or a pass makes no progress. -/
def run (s : Sweep) (objects : List LegacyObject) : Sweep :=
  let next := s.pass objects
  -- Only an origin not seen before makes the parcels more
  if h : s.parcels.length < next.parcels.length ∧ next.waiting ≠ [] then
    have : (s.pass objects).waiting.length < objects.length := length_waiting_pass_lt h.1
    run next (next.waiting.map Waiting.object)
  else next.settle
termination_by objects.length

/-- A pass that makes progress is followed by one over what still waits. -/
theorem run_of_more {s : Sweep} {objects : List LegacyObject}
    (h : s.parcels.length < (s.pass objects).parcels.length ∧ (s.pass objects).waiting ≠ []) :
    s.run objects = (s.pass objects).run ((s.pass objects).waiting.map Waiting.object) := by
  rw [run]
  exact dif_pos h

/-- Any other pass is the last. -/
theorem run_of_last {s : Sweep} {objects : List LegacyObject}
    (h : ¬ (s.parcels.length < (s.pass objects).parcels.length ∧
      (s.pass objects).waiting ≠ [])) :
    s.run objects = (s.pass objects).settle := by
  rw [run]
  exact dif_neg h

/-- Converts all objects of a tree. -/
def ofTree (tree : CollectedTree) (ctx : Context) : Sweep := (start ctx).run tree.objects

/-- Where nothing waits after one pass, that is the only one. -/
theorem ofTree_of_waiting_eq_nil {tree : CollectedTree} {ctx : Context}
    (h : ((start ctx).pass tree.objects).waiting = []) :
    ofTree tree ctx = ((start ctx).pass tree.objects).settle := by
  rw [ofTree]
  exact run_of_last fun hmore => hmore.2 h

end Sweep

end ProfileMigration
