/-
  ProfileMigration.Proofs.Delivery.Congruence

  Parcels that a push does not tell apart:

    Parcel.Alike            -- the same identifier, name and type, and the same body to send
    Build.create_eq         -- creating one of them does what creating the other does
    Build.families_eq       -- and so on through children and parents
    push_mapParcels         -- plans with such parcels in place of others are pushed alike

  The manager sees a parcel as its path and its body, and a report by its name.
-/
import Mathlib.Data.List.Basic
import ProfileMigration.Delivery.Push
import ProfileMigration.Proofs.Delivery.ReferenceClosure
import ProfileMigration.Proofs.Plan.Members

namespace ProfileMigration

/-- A parcel that a build does not tell from another one: whatever the remote identifiers are,
    both are sent with the same body, or neither is for want of the same identifier. -/
structure Parcel.Alike (q p : Parcel) : Prop where
  id : q.id = p.id
  name : q.name = p.name
  type : q.type = p.type
  request : ∀ ids, q.request ids = p.request ids

namespace Build

variable {σ : Type} {q p : Parcel}

theorem accept_eq (h : q.Alike p) (b : Build σ) (id : Uuid) : b.accept q id = b.accept p id := by
  rw [accept, accept, h.id, h.name, h.type]

theorem fail_eq (h : q.Alike p) (b : Build σ) (error : String) :
    b.fail q error = b.fail p error := by
  rw [fail, fail, h.name, h.type]

theorem refuse_eq (h : q.Alike p) (b : Build σ) (e : TransportError) :
    b.refuse q e = b.refuse p e := by
  rw [refuse, refuse, h.name, h.type]

/-- Creating a parcel does what creating one like it does. -/
theorem create_eq (h : q.Alike p) (m : Manager σ) (path : String) (b : Build σ) :
    b.create m path q = b.create m path p := by
  rw [create, create, h.request]
  simp only [accept_eq h, fail_eq h, refuse_eq h]

theorem createTop_eq (h : q.Alike p) (m : Manager σ) (b : Build σ) :
    b.createTop m q = b.createTop m p := by
  rw [createTop, createTop, h.type, create_eq h]

theorem associate_eq (h : q.Alike p) (m : Manager σ) (parentPath : String) (id : Uuid)
    (b : Build σ) : b.associate m parentPath q id = b.associate m parentPath p id := by
  rw [associate, associate, h.type]
  simp only [refuse_eq h]

theorem child_eq (h : q.Alike p) (m : Manager σ) (parentPath : String) (b : Build σ) :
    child m parentPath b q = child m parentPath b p := by
  rw [child, child, h.type]
  simp only [create_eq h, createTop_eq h, associate_eq h]

variable {f : Parcel → Parcel}

theorem family_eq {parent : Parcel} {children : List Parcel} (hparent : (f parent).Alike parent)
    (hchildren : ∀ p ∈ children, (f p).Alike p) (m : Manager σ) (b : Build σ) :
    b.family m (f parent) (children.map f) = b.family m parent children := by
  have hborn : ∀ (path : String) (b : Build σ),
      (children.map f).foldl (child m path) b = children.foldl (child m path) b := by
    intro path b
    rw [List.foldl_map]
    exact List.foldl_ext _ _ b fun b p hp => child_eq (hchildren p hp) m path b
  have hheld : ∀ (error : String) (b : Build σ),
      (children.map f).foldl (fun b p => b.fail p error) b =
        children.foldl (fun b p => b.fail p error) b := by
    intro error b
    rw [List.foldl_map]
    exact List.foldl_ext _ _ b fun b p hp => fail_eq (hchildren p hp) b error
  rw [family, family, createTop_eq hparent, hparent.type, hparent.name]
  simp only [hborn, hheld]

/-- Families with parcels like others in their place are created as those would be. -/
theorem families_eq (m : Manager σ) {parents children : List (Tag × Parcel)}
    (hparents : ∀ e ∈ parents, (f e.2).Alike e.2) (hchildren : ∀ e ∈ children, (f e.2).Alike e.2)
    (b : Build σ) :
    families m (parents.map (Prod.map id f)) (children.map (Prod.map id f)) b =
      families m parents children b := by
  induction parents generalizing children b with
  | nil =>
    rw [List.map_nil, families, families, List.foldl_map]
    exact List.foldl_ext _ _ b fun b e he => fail_eq (hchildren e he) b _
  | cons entry rest ih =>
    obtain ⟨tag, parent⟩ := entry
    obtain ⟨hparent, hrest⟩ := List.forall_mem_cons.mp hparents
    -- What stands in the place of a child bears its tag
    have hfilter : ∀ test : Tag → Bool, (children.map (Prod.map id f)).filter (fun c => test c.1) =
        (children.filter fun c => test c.1).map (Prod.map id f) := by
      intro test
      rw [List.filter_map]
      rfl
    have hmine : ((children.filter fun c => decide (c.1 = tag)).map (Prod.map id f)).map Prod.snd =
        ((children.filter fun c => decide (c.1 = tag)).map Prod.snd).map f := by
      rw [List.map_map, List.map_map]
      rfl
    have hchild : ∀ p ∈ (children.filter fun c => decide (c.1 = tag)).map Prod.snd,
        (f p).Alike p := by
      intro p hp
      obtain ⟨c, hc, rfl⟩ := List.mem_map.mp hp
      exact hchildren c (List.mem_filter.mp hc).1
    have hothers : ∀ c ∈ children.filter fun c => !decide (c.1 = tag), (f c.2).Alike c.2 :=
      fun c hc => hchildren c (List.mem_filter.mp hc).1
    rw [List.map_cons, Prod.map_apply, id_eq, families, families]
    simp only [List.partition_eq_filter_filter]
    rw [hfilter fun t => decide (t = tag), hmine, family_eq hparent hchild]
    have hleft : (children.map (Prod.map id f)).filter (not ∘ fun c => decide (c.1 = tag)) =
        (children.filter (not ∘ fun c => decide (c.1 = tag))).map (Prod.map id f) :=
      hfilter fun t => !decide (t = tag)
    rw [hleft]
    exact ih hrest hothers _

end Build

/-! ## Drafts and plans -/

variable {σ : Type} {f : Parcel → Parcel}

/-- A draft with something in place of every parcel. -/
def Draft.mapParcels (f : Parcel → Parcel) (d : Draft) : Draft :=
  { d with
    parcels := d.parcels.map f
    parents := d.parents.map (Prod.map id f)
    children := d.children.map (Prod.map id f) }

/-- A draft with parcels like others in their place is built as that of the others would be. -/
theorem Draft.buildNamed_mapParcels (m : Manager σ) {d : Draft}
    (h : ∀ slot ∈ d.queue, (f slot.2).Alike slot.2) (header : ProfileHeader) (s : Session σ) :
    (d.mapParcels f).buildNamed m header s = d.buildNamed m header s := by
  rw [queue, List.forall_mem_append, List.forall_mem_append, List.forall_mem_map,
    List.forall_mem_map, List.forall_mem_map] at h
  obtain ⟨⟨hparcels, hparents⟩, hchildren⟩ := h
  have halone : ∀ b : Build σ, (d.parcels.map f).foldl (fun b p => (b.createTop m p).2) b =
      d.parcels.foldl (fun b p => (b.createTop m p).2) b := by
    intro b
    rw [List.foldl_map]
    refine List.foldl_ext _ _ b fun b p hp => ?_
    rw [Build.createTop_eq (hparcels p hp)]
  have hbuild : ∀ b : Build σ, (d.mapParcels f).buildParcels m b = d.buildParcels m b := by
    intro b
    rw [buildParcels, buildParcels, mapParcels]
    dsimp only
    rw [halone, Build.families_eq m hparents hchildren]
  rw [buildNamed, buildNamed]
  simp only [hbuild]
  rfl

theorem Draft.build_mapParcels (m : Manager σ) {d : Draft}
    (h : ∀ slot ∈ d.queue, (f slot.2).Alike slot.2) (s : Session σ) :
    (d.mapParcels f).build m s = d.build m s := by
  have hheader : (d.mapParcels f).header = d.header := rfl
  rw [build, build, hheader]
  simp only [buildNamed_mapParcels m h]

namespace ProfilePlan

variable {plan : ProfilePlan}

theorem tagged_mapParcels (h : ∀ p ∈ plan.members, (f p).Alike p) :
    (plan.mapParcels f).tagged = plan.tagged.map (Prod.map id (ParentPlan.mapParcels f)) := by
  rw [tagged, tagged, mapParcels, List.zipIdx_map, List.map_map, List.map_map]
  refine List.map_congr_left fun entry hentry => ?_
  obtain ⟨parent, n⟩ := entry
  have hmem : parent.parcel ∈ plan.members :=
    List.mem_append_right _ (List.mem_flatMap.mpr
      ⟨parent, List.fst_mem_of_mem_zipIdx hentry, List.mem_cons_self⟩)
  have hid : (f parent.parcel).id = parent.parcel.id := (h _ hmem).id
  simp only [Function.comp_apply, Prod.map_apply, id_eq, ParentPlan.mapParcels, hid]

theorem draft_mapParcels (h : ∀ p ∈ plan.members, (f p).Alike p) (ids : RemoteIds) :
    (plan.mapParcels f).draft ids = (plan.draft ids).mapParcels f := by
  have hparents : ((plan.mapParcels f).draft ids).parents =
      (plan.draft ids).parents.map (Prod.map id f) := by
    rw [draft, draft, tagged_mapParcels h, List.map_map, List.map_map]
    rfl
  have hchildren : ((plan.mapParcels f).draft ids).children =
      (plan.draft ids).children.map (Prod.map id f) := by
    rw [draft, draft, tagged_mapParcels h, List.flatMap_map, List.map_flatMap]
    dsimp only [ParentPlan.mapParcels, Prod.map]
    simp only [List.map_map]
    rfl
  rw [Draft.mapParcels, ← hparents, ← hchildren]
  rfl

theorem build_mapParcels (m : Manager σ) (h : ∀ p ∈ plan.members, (f p).Alike p)
    (ids : RemoteIds) (s : Session σ) :
    ((plan.mapParcels f).draft ids).build m s = (plan.draft ids).build m s := by
  rw [draft_mapParcels h]
  refine Draft.build_mapParcels m (fun slot hslot => h _ ?_) s
  exact (plan.queue_perm_members ids).mem_iff.mp (List.mem_map_of_mem hslot)

end ProfilePlan

namespace Push

theorem profile_mapParcels (m : Manager σ) (shared : Bool) {plan : ProfilePlan}
    (h : ∀ p ∈ plan.members, (f p).Alike p) (p : Push σ) :
    p.profile m shared (plan.mapParcels f) = p.profile m shared plan := by
  rw [profile, profile, plan.build_mapParcels m h]
  rfl

theorem run_mapParcels (m : Manager σ) {plans : List (Bool × ProfilePlan)}
    (h : ∀ e ∈ plans, ∀ p ∈ e.2.members, (f p).Alike p) (p : Push σ) :
    run m (plans.map (Prod.map id (ProfilePlan.mapParcels f))) p = run m plans p := by
  induction plans generalizing p with
  | nil => rfl
  | cons entry rest ih =>
    obtain ⟨hplan, hrest⟩ := List.forall_mem_cons.mp h
    rw [List.map_cons, Prod.map_apply, id_eq, run, run, profile_mapParcels m _ hplan]
    simp only [ih hrest]

end Push

/-- Plans with parcels like others in their place are pushed as those would be: the manager is
    asked for the same, and the result is the same. -/
theorem push_mapParcels (m : Manager σ) {r : TransformResult}
    (h : ∀ plan ∈ r.plans, ∀ p ∈ plan.members, (f p).Alike p) (s : Session σ) :
    push m (r.mapParcels f) s = push m r s := by
  have hordered : (r.mapParcels f).ordered =
      r.ordered.map (Prod.map id (ProfilePlan.mapParcels f)) := by
    rw [TransformResult.ordered, TransformResult.ordered, List.map_append, List.map_map,
      List.map_map, TransformResult.mapParcels]
    cases r.policyObjects <;> simp
  have hplans : ∀ e ∈ r.ordered, ∀ p ∈ e.2.members, (f p).Alike p := by
    intro e he
    rcases List.mem_append.mp he with he | he
    · obtain ⟨plan, hplan, rfl⟩ := List.mem_map.mp he
      exact h plan (List.mem_append_left _ hplan)
    · obtain ⟨plan, hplan, rfl⟩ := List.mem_map.mp he
      exact h plan (List.mem_append_right _ hplan)
  rw [push, push, hordered, Push.run_mapParcels m hplans]

end ProfileMigration
