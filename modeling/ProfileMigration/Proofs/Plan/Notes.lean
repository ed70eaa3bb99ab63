/-
  ProfileMigration.Proofs.Plan.Notes

  What is kept in the context beside identifiers has no part in conversion:

    convert_attach          -- no object is converted in another way for it
    Sweep.ofTree_attach     -- nor is a whole tree, and what was kept is still there
    header?_attach          -- so the header of the shared profile is read back as it was kept
    transform_fst           -- and the plans are those of the tree converted without it

  Only the header of the shared profile is ever read, and only after the conversion.
-/
import ProfileMigration.Plan.Transform
import ProfileMigration.Proofs.Legacy.Registration
import ProfileMigration.Proofs.Template.Steadiness

namespace ProfileMigration

variable {name : String} {note : Note}

/-- The same objects are found with something kept beside them. -/
theorem convert_attach (o : LegacyObject) (id : Uuid) (c : Context) (name : String) (note : Note) :
    convert o id (c.attach name note) = convert o id c := by
  have hsame : ∀ category origin,
      (c.attach name note).resolve category origin = c.resolve category origin :=
    fun _ _ => rfl
  have hwithin : c.Within (c.attach name note) := fun _ _ _ h => h
  rcases steady_convert o id hwithin with heq | ⟨category, origin, -, hnone, hsome⟩
  · exact heq
  · rw [hsame, hnone] at hsome
    cases hsome

namespace Sweep

/-- A sweep with something more kept in its context. -/
def attach (s : Sweep) (name : String) (note : Note) : Sweep :=
  { s with ctx := s.ctx.attach name note }

theorem visit_attach (s : Sweep) (o : LegacyObject) :
    (s.attach name note).visit o = (s.visit o).attach name note := by
  have hconvert := convert_attach o (generatedId o.category o.id) s.ctx name note
  rw [visit, visit]
  rw [show (s.attach name note).ctx = s.ctx.attach name note from rfl, hconvert]
  cases convert o (generatedId o.category o.id) s.ctx with
  | ok p => rfl
  | error e =>
    dsimp only
    cases e.deferred with
    | true => rfl
    | false => rfl

theorem foldl_visit_attach (objects : List LegacyObject) (s : Sweep) :
    objects.foldl visit (s.attach name note) = (objects.foldl visit s).attach name note := by
  induction objects generalizing s with
  | nil => rfl
  | cons o rest ih => rw [List.foldl_cons, List.foldl_cons, visit_attach, ih]

theorem pass_attach (s : Sweep) (objects : List LegacyObject) :
    (s.attach name note).pass objects = (s.pass objects).attach name note :=
  foldl_visit_attach objects { s with waiting := [] }

theorem run_attach (s : Sweep) (objects : List LegacyObject) :
    (s.attach name note).run objects = (s.run objects).attach name note := by
  induction s, objects using Sweep.run.induct with
  | case1 s objects next hmore hlt ih =>
    have hpass : (s.attach name note).pass objects = next.attach name note := pass_attach s objects
    rw [run_of_more hmore, run_of_more (by rw [hpass]; exact hmore), hpass]
    exact ih
  | case2 s objects next hend =>
    have hpass : (s.attach name note).pass objects = next.attach name note := pass_attach s objects
    rw [run_of_last hend, run_of_last (by rw [hpass]; exact hend), hpass]
    rfl

/-- A tree is converted as it is without what is kept, which is still there at the end. -/
theorem ofTree_attach (tree : CollectedTree) (ctx : Context) (name : String) (note : Note) :
    ofTree tree (ctx.attach name note) = (ofTree tree ctx).attach name note :=
  run_attach (start ctx) tree.objects

end Sweep

/-- The header of the shared profile is read back as it was kept. -/
theorem header?_attach (ctx : Context) (name : String) (header : ProfileHeader) :
    (ctx.attach name (.header header)).header? name = some header := by
  rw [Context.header?, Context.get?, Context.attach]
  dsimp only
  rw [Keyed.get?_insert_self, Option.bind_some]
  exact AnyOf.as?_eq_some_iff.mpr rfl

/-- The plans are those of the tree as it is converted without the header, with the header for
    the shared profile. -/
theorem transform_fst (tree : CollectedTree) (ctx : Context) (mark : String) :
    (transform tree ctx mark).1 =
      { policyObjects := policyObjectPlan (Sweep.ofTree tree ctx).parcels
          (some (policyObjectHeader mark)) tree
        profiles := tree.deviceTemplates.flatMap fun t =>
          (devicePlans (Sweep.ofTree tree ctx).parcels mark t).map
            (withRoutePolicies (Sweep.ofTree tree ctx).parcels.routePolicy?)
        failures := (Sweep.ofTree tree ctx).failures ++
          tree.deviceTemplates.flatMap (misplacedFailures (Sweep.ofTree tree ctx).parcels) } := by
  rw [transform, Sweep.ofTree_attach]
  dsimp only
  rw [plansOf]
  have hheader : ((Sweep.ofTree tree ctx).attach policyObjectNote
      (.header (policyObjectHeader mark))).ctx.header? policyObjectNote =
        some (policyObjectHeader mark) := header?_attach _ _ _
  rw [hheader]
  rfl

end ProfileMigration
