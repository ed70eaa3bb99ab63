/-
  ProfileMigration.Proofs.Plan.FixedPoint

  The sweep over a collected tree computes a fixed point of conversion:

    LegacyObject.outcome    -- the conversion of an object in a context
    failureIn               -- what is to be reported of an object in a context
    Sweep.Decided           -- the objects whose outcome is final, and what they left behind
    Sweep.Underway          -- the same in the middle of a pass, with the objects that wait
    Sweep.Takes             -- a run as a number of passes
    Sweep.FixedPoint        -- what holds when a run is over
    fixedPoint_ofTree       -- it holds, after few passes

  Conversion is steady, so an outcome that does not wait for another object stays the outcome
  in every later context. A pass without a new parcel leaves the context as it was, so what
  still waits after it waits for good.
-/
import ProfileMigration.Plan.Sweep
import ProfileMigration.Proofs.Template.Steadiness
import Mathlib.Data.List.Dedup
import Mathlib.Data.List.Perm.Subperm

namespace ProfileMigration

/-- The conversion of an object, under its generated identifier, in a context. -/
def LegacyObject.outcome (o : LegacyObject) (c : Context) : Converted Parcel :=
  convert o (generatedId o.category o.id) c

/-- What is to be reported of an object whose conversion fails in a context. -/
def failureIn (c : Context) (o : LegacyObject) : Option TransformFailure :=
  match o.outcome c with
  | .ok _ => none
  | .error e => some (.ofObject o e)

/-- It identifies the object, and has the words of its error. -/
theorem of_failureIn_eq_some {c : Context} {o : LegacyObject} {f : TransformFailure}
    (h : failureIn c o = some f) : ∃ e, o.outcome c = .error e ∧ f.origin = o.id ∧
      f.name = o.name ∧ f.category = o.category ∧ f.kind = o.kind ∧ f.error = e.message := by
  rw [failureIn] at h
  cases hout : o.outcome c with
  | ok _ =>
    rw [hout] at h
    cases h
  | error e =>
    rw [hout] at h
    obtain rfl := Option.some.inj h
    exact ⟨e, rfl, rfl, rfl, rfl, rfl, rfl⟩

/-- An outcome that does not wait for another object is the same in every wider context. -/
theorem outcome_eq_of_within {o : LegacyObject} {c c' : Context} (hc : c.Within c')
    (h : ∀ category id, o.outcome c ≠ .error (.unresolved category id)) :
    o.outcome c' = o.outcome c := by
  rcases steady_convert o (generatedId o.category o.id) hc with heq | ⟨category, id, hmissing, -⟩
  · exact heq
  · exact absurd hmissing (h category id)

/-- Contexts with the same objects give the same outcomes. -/
theorem outcome_congr {c c' : Context} (hc : c.Within c') (hc' : c'.Within c) (o : LegacyObject) :
    o.outcome c' = o.outcome c := by
  rcases steady_convert o (generatedId o.category o.id) hc with
    heq | ⟨category, origin, -, hnone, hsome⟩
  · exact heq
  · obtain ⟨id, hid⟩ := Option.isSome_iff_exists.mp hsome
    rw [hc' category origin id hid] at hnone
    cases hnone

theorem outcome_ok_of_within {o : LegacyObject} {c c' : Context} {p : Parcel} (hc : c.Within c')
    (h : o.outcome c = .ok p) : o.outcome c' = .ok p := by
  rw [outcome_eq_of_within hc (by rw [h]; simp), h]

/-- What a list is filtered for, beside what is made of it. -/
theorem forall₂_filter_filterMap {α β : Type} (f : α → Option β) (xs : List α) :
    List.Forall₂ (fun x y => f x = some y) (xs.filter fun x => (f x).isSome)
      (xs.filterMap f) := by
  induction xs with
  | nil => exact .nil
  | cons x rest ih =>
    cases hx : f x with
    | none =>
      rw [List.filter_cons_of_neg (by simp [hx]), List.filterMap_cons_none hx]
      exact ih
    | some y =>
      rw [List.filter_cons_of_pos (by simp [hx]), List.filterMap_cons_some hx]
      exact .cons hx ih

/-! ## Objects whose outcome is final -/

namespace Sweep

/-- A context that has every object that converts in it, under its generated identifier. -/
def Closed (objects : List LegacyObject) (c : Context) : Prop :=
  ∀ o ∈ objects, ∀ p, o.outcome c = .ok p →
    c.resolve o.category o.id = some (generatedId o.category o.id)

/-- The objects whose outcome is final, and what they left behind: a parcel of their origin, or
    a failure, in the order in which they were decided. Nothing is registered that a closed
    context could do without. -/
structure Decided (done : List LegacyObject) (s : Sweep) : Prop where
  registered : ∀ category origin id, s.ctx.resolve category origin = some id ↔
    (category, origin) ∈ s.parcels.map Prod.fst ∧ id = generatedId category origin
  nodup : (s.parcels.map Prod.fst).Nodup
  final : ∀ o ∈ done, ∀ category id, o.outcome s.ctx ≠ .error (.unresolved category id)
  closed : Closed done s.ctx
  least : ∀ c, Closed done c → s.ctx.Within c
  failures : s.failures = done.filterMap (failureIn s.ctx)
  source : ∀ entry ∈ s.parcels, ∃ o ∈ done, o.origin = entry.1 ∧ o.outcome s.ctx = .ok entry.2

/-- The middle of a pass that began in a given state. What waits was refused in some context
    since then. -/
structure Underway (opening : Sweep) (done : List LegacyObject) (s : Sweep) : Prop
    extends Decided done s where
  grown : opening.parcels.map Prod.fst <+: s.parcels.map Prod.fst
  within : opening.ctx.Within s.ctx
  causes : ∀ w ∈ s.waiting, ∃ c : Context, opening.ctx.Within c ∧ c.Within s.ctx ∧
    w.object.outcome c = .error w.cause

/-- The objects that wait. -/
def waitingObjects (s : Sweep) : List LegacyObject := s.waiting.map Waiting.object

theorem decided_start (notes : List (String × Note)) : Decided [] (start ⟨[], notes⟩) where
  registered := fun _ _ _ =>
    iff_of_false (Option.some_ne_none _).symm fun h => List.not_mem_nil h.1
  nodup := List.nodup_nil
  final := by simp
  closed := by simp [Closed]
  least := fun _ _ _ _ _ h => absurd h.symm (Option.some_ne_none _)
  failures := rfl
  source := by simp [start]

/-- What waits has no part in what is decided. -/
theorem Decided.with_waiting {done : List LegacyObject} {s : Sweep} (h : Decided done s)
    (waiting : List Waiting) : Decided done { s with waiting := waiting } :=
  ⟨h.registered, h.nodup, h.final, h.closed, h.least, h.failures, h.source⟩

/-- What decided objects left behind is still right in a wider context. -/
theorem Decided.outcome_eq {done : List LegacyObject} {s : Sweep} (h : Decided done s)
    {c : Context} (hc : s.ctx.Within c) {o : LegacyObject} (ho : o ∈ done) :
    o.outcome c = o.outcome s.ctx :=
  outcome_eq_of_within hc (h.final o ho)

/-- Objects are registered under their generated identifiers. -/
theorem Decided.resolve_register {done : List LegacyObject} {s : Sweep} (h : Decided done s)
    (o : LegacyObject) (category : Category) (origin : String) :
    (s.ctx.register o.category o.id).2.resolve category origin =
      if category = o.category ∧ origin = o.id then some (generatedId o.category o.id)
      else s.ctx.resolve category origin := by
  rw [Context.resolve_register, Context.register_fst]
  cases hid : s.ctx.resolve o.category o.id with
  | none => rfl
  | some id => rw [((h.registered _ _ _).mp hid).2, Option.getD_some]

/-- An object that converts is decided, and its origin has a parcel. -/
theorem Decided.convert {done : List LegacyObject} {s : Sweep} (h : Decided done s)
    {o : LegacyObject} {p : Parcel} (ho : o.outcome s.ctx = .ok p) :
    Decided (done ++ [o])
      { s with
        ctx := (s.ctx.register o.category o.id).2
        parcels := s.parcels.assign o.origin p } := by
  -- Registering the object changes no outcome that is final, its own included
  have hwide := Context.within_register s.ctx o.category o.id
  have hself : o.outcome (s.ctx.register o.category o.id).2 = .ok p := outcome_ok_of_within hwide ho
  have hkept : ∀ o' ∈ done, o'.outcome (s.ctx.register o.category o.id).2 = o'.outcome s.ctx :=
    fun o' ho' => h.outcome_eq hwide ho'
  constructor
  case registered =>
    intro category origin id
    show (s.ctx.register o.category o.id).2.resolve category origin = _ ↔
      _ ∈ (s.parcels.assign o.origin p).map Prod.fst ∧ _
    rw [h.resolve_register, Entries.mem_map_fst_assign, LegacyObject.origin, Prod.mk.injEq]
    by_cases hsame : category = o.category ∧ origin = o.id
    · obtain ⟨rfl, rfl⟩ := hsame
      simp [eq_comm]
    · rw [if_neg hsame, h.registered, or_iff_right hsame]
  case nodup => exact Entries.nodup_assign h.nodup o.origin p
  case final =>
    intro o' ho' category id
    rcases List.mem_append.mp ho' with ho' | ho'
    · rw [hkept o' ho']
      exact h.final o' ho' category id
    · rw [List.mem_singleton.mp ho', hself]
      simp
  case closed =>
    intro o' ho' q hq
    rcases List.mem_append.mp ho' with ho' | ho'
    · rw [hkept o' ho'] at hq
      exact hwide _ _ _ (h.closed o' ho' q hq)
    · rw [List.mem_singleton.mp ho', h.resolve_register, if_pos ⟨rfl, rfl⟩]
  case least =>
    -- In a closed context the object converts as well, so it has been registered there
    intro c hc category origin id hid
    have hwithin : s.ctx.Within c := h.least c fun o' ho' => hc o' (List.mem_append_left _ ho')
    rw [h.resolve_register] at hid
    by_cases hsame : category = o.category ∧ origin = o.id
    · rw [if_pos hsame] at hid
      rw [hsame.1, hsame.2, ← hid]
      exact hc o (by simp) p (outcome_ok_of_within hwithin ho)
    · rw [if_neg hsame] at hid
      exact hwithin _ _ _ hid
  case failures =>
    have hnone : failureIn (s.ctx.register o.category o.id).2 o = none := by
      rw [failureIn, hself]
    have hsame : done.filterMap (failureIn (s.ctx.register o.category o.id).2) =
        done.filterMap (failureIn s.ctx) :=
      List.filterMap_congr fun o' ho' => by rw [failureIn, failureIn, hkept o' ho']
    show s.failures = _
    rw [List.filterMap_append, hsame, ← h.failures]
    simp [hnone]
  case source =>
    intro entry hentry
    rcases Entries.mem_assign hentry with rfl | hmem
    · exact ⟨o, by simp, rfl, hself⟩
    · obtain ⟨o', ho', horigin, hout⟩ := h.source entry hmem
      exact ⟨o', List.mem_append_left _ ho', horigin, by rw [hkept o' ho']; exact hout⟩

/-- An object whose conversion fails for good is decided, and reported. -/
theorem Decided.refuse {done : List LegacyObject} {s : Sweep} (h : Decided done s)
    {o : LegacyObject} {e : ConversionError} (ho : o.outcome s.ctx = .error e)
    (he : e.deferred = false) :
    Decided (done ++ [o]) { s with failures := s.failures ++ [.ofObject o e] } := by
  constructor
  case registered => exact h.registered
  case nodup => exact h.nodup
  case final =>
    intro o' ho' category id
    rcases List.mem_append.mp ho' with ho' | ho'
    · exact h.final o' ho' category id
    · rw [List.mem_singleton.mp ho', ho]
      intro heq
      rw [Except.error.inj heq] at he
      cases he
  case closed =>
    -- Nothing is asked of a context for an object that does not convert in it
    intro o' ho' q hq
    rcases List.mem_append.mp ho' with ho' | ho'
    · exact h.closed o' ho' q hq
    · rw [List.mem_singleton.mp ho', ho] at hq
      cases hq
  case least => exact fun c hc => h.least c fun o' ho' => hc o' (List.mem_append_left _ ho')
  case failures =>
    have hsome : failureIn s.ctx o = some (.ofObject o e) := by rw [failureIn, ho]
    show s.failures ++ _ = _
    rw [List.filterMap_append, h.failures]
    simp [hsome]
  case source =>
    intro entry hentry
    obtain ⟨o', ho', hsource⟩ := h.source entry hentry
    exact ⟨o', List.mem_append_left _ ho', hsource⟩

/-! ## One object, one pass -/

theorem visit_of_ok {s : Sweep} {o : LegacyObject} {p : Parcel} (h : o.outcome s.ctx = .ok p) :
    s.visit o =
      { s with
        ctx := (s.ctx.register o.category o.id).2
        parcels := s.parcels.assign o.origin p } := by
  rw [LegacyObject.outcome] at h
  rw [visit, h]

theorem visit_of_error {s : Sweep} {o : LegacyObject} {e : ConversionError}
    (h : o.outcome s.ctx = .error e) :
    s.visit o =
      if e.deferred then { s with waiting := s.waiting ++ [⟨o, e⟩] }
      else { s with failures := s.failures ++ [.ofObject o e] } := by
  rw [LegacyObject.outcome] at h
  rw [visit, h]

/-- One object is decided or waits, and nothing else changes its place. -/
theorem Underway.visit {opening : Sweep} {done : List LegacyObject} {s : Sweep}
    (h : Underway opening done s) (o : LegacyObject) :
    ∃ done', Underway opening done' (s.visit o) ∧
      (done' ++ (s.visit o).waitingObjects).Perm (done ++ s.waitingObjects ++ [o]) := by
  have hswap : (done ++ [o] ++ s.waitingObjects).Perm (done ++ s.waitingObjects ++ [o]) := by
    rw [List.append_assoc, List.append_assoc]
    exact List.Perm.append_left _ List.perm_append_comm
  cases hout : o.outcome s.ctx with
  | ok p =>
    rw [visit_of_ok hout]
    have hwide := Context.within_register s.ctx o.category o.id
    refine ⟨done ++ [o], ⟨h.toDecided.convert hout, ?_, h.within.trans hwide, ?_⟩, hswap⟩
    · exact h.grown.trans (Entries.prefix_map_fst_assign _ _ _)
    · intro w hw
      obtain ⟨c, hopening, hnow, hcause⟩ := h.causes w hw
      exact ⟨c, hopening, hnow.trans hwide, hcause⟩
  | error e =>
    rw [visit_of_error hout]
    cases he : e.deferred with
    | true =>
      refine ⟨done, ⟨h.toDecided.with_waiting _, h.grown, h.within, ?_⟩, ?_⟩
      · intro w hw
        rcases List.mem_append.mp hw with hw | hw
        · exact h.causes w hw
        · -- The object was refused in the context as it is now
          rw [List.mem_singleton.mp hw]
          exact ⟨s.ctx, h.within, .refl _, hout⟩
      · simp [waitingObjects]
    | false =>
      exact ⟨done ++ [o], ⟨h.toDecided.refuse hout he, h.grown, h.within, h.causes⟩, hswap⟩

/-- A pass over objects decides some and leaves the others waiting. -/
theorem Underway.foldl_visit {opening : Sweep} (objects : List LegacyObject) :
    ∀ {done : List LegacyObject} {s : Sweep}, Underway opening done s →
      ∃ done', Underway opening done' (objects.foldl Sweep.visit s) ∧
        (done' ++ (objects.foldl Sweep.visit s).waitingObjects).Perm
          (done ++ s.waitingObjects ++ objects) := by
  induction objects with
  | nil =>
    intro done s h
    exact ⟨done, h, by simp⟩
  | cons o rest ih =>
    intro done s h
    obtain ⟨done₁, h₁, hperm₁⟩ := h.visit o
    obtain ⟨done₂, h₂, hperm₂⟩ := ih h₁
    refine ⟨done₂, h₂, hperm₂.trans ?_⟩
    have := hperm₁.append_right rest
    simpa using this

theorem Decided.pass {done : List LegacyObject} {s : Sweep} (h : Decided done s)
    (objects : List LegacyObject) :
    ∃ done', Underway s done' (s.pass objects) ∧
      (done' ++ (s.pass objects).waitingObjects).Perm (done ++ objects) := by
  have hopen : Underway s done { s with waiting := [] } :=
    ⟨h.with_waiting [], List.prefix_refl _, .refl _, by simp⟩
  obtain ⟨done', h', hperm⟩ := hopen.foldl_visit objects
  rw [show waitingObjects { s with waiting := [] } = [] from rfl, List.append_nil] at hperm
  exact ⟨done', h', hperm⟩

/-! ## The end of a run -/

/-- What holds of all objects when a run is over: the context is the least closed one, and
    parcels and failures are those of conversion in it. -/
structure FixedPoint (objects : List LegacyObject) (s : Sweep) : Prop where
  registered : ∀ category origin id, s.ctx.resolve category origin = some id ↔
    (category, origin) ∈ s.parcels.map Prod.fst ∧ id = generatedId category origin
  nodup : (s.parcels.map Prod.fst).Nodup
  closed : Closed objects s.ctx
  least : ∀ c, Closed objects c → s.ctx.Within c
  failures : s.failures.Perm (objects.filterMap (failureIn s.ctx))
  source : ∀ entry ∈ s.parcels, ∃ o ∈ objects, o.origin = entry.1 ∧ o.outcome s.ctx = .ok entry.2

/-- After a pass that leaves nothing waiting or makes no new parcel, giving up on what waits
    is right. -/
theorem Underway.settle {s : Sweep} {earlier done objects : List LegacyObject} {next : Sweep}
    (h : Underway s done next) (hperm : (done ++ next.waitingObjects).Perm objects)
    (hopening : Decided earlier s)
    (hend : ¬ (s.parcels.length < next.parcels.length ∧ next.waiting ≠ [])) :
    FixedPoint objects next.settle := by
  -- What waits was refused with the same objects registered as now
  have hcause : ∀ w ∈ next.waiting, w.object.outcome next.ctx = .error w.cause := by
    intro w hw
    obtain ⟨c, hwithin, hnow, hcause⟩ := h.causes w hw
    have hlen : (next.parcels.map Prod.fst).length ≤ (s.parcels.map Prod.fst).length := by
      rw [List.length_map, List.length_map]
      by_contra hlt
      exact hend ⟨by omega, List.ne_nil_of_mem hw⟩
    have hsame : s.parcels.map Prod.fst = next.parcels.map Prod.fst :=
      h.grown.eq_of_length (Nat.le_antisymm h.grown.length_le hlen)
    have hback : next.ctx.Within c := by
      intro category origin id hid
      rw [h.registered, ← hsame, ← hopening.registered] at hid
      exact hwithin _ _ _ hid
    rw [← hcause]
    exact outcome_congr hnow hback w.object
  have hfail : next.waiting.map (fun w => TransformFailure.ofObject w.object w.cause) =
      next.waitingObjects.filterMap (failureIn next.ctx) := by
    rw [waitingObjects, List.filterMap_map, ← List.filterMap_eq_map]
    refine List.filterMap_congr fun w hw => ?_
    simp [failureIn, hcause w hw]
  constructor
  case registered => exact h.registered
  case nodup => exact h.nodup
  case closed =>
    intro o ho p hp
    rcases List.mem_append.mp (hperm.mem_iff.mpr ho) with ho | ho
    · exact h.closed o ho p hp
    · obtain ⟨w, hw, rfl⟩ := List.mem_map.mp ho
      have hp' : w.object.outcome next.ctx = .ok p := hp
      rw [hcause w hw] at hp'
      cases hp'
  case least =>
    exact fun c hc => h.least c fun o ho => hc o (hperm.mem_iff.mp (List.mem_append_left _ ho))
  case failures =>
    show (next.failures ++ _).Perm _
    rw [h.failures, hfail, ← List.filterMap_append]
    exact hperm.filterMap _
  case source =>
    intro entry hentry
    obtain ⟨o, ho, hsource⟩ := h.source entry hentry
    exact ⟨o, hperm.mem_iff.mp (List.mem_append_left _ ho), hsource⟩

/-- A run of so many passes from a state over objects ends in a state. -/
inductive Takes : Nat → Sweep → List LegacyObject → Sweep → Prop
  /-- The last pass leaves nothing waiting or makes no new parcel. -/
  | last {s : Sweep} {objects : List LegacyObject}
      (h : ¬ (s.parcels.length < (s.pass objects).parcels.length ∧
        (s.pass objects).waiting ≠ [])) :
      Takes 1 s objects (s.pass objects).settle
  /-- Any other pass is followed by one over what waits. -/
  | more {n : Nat} {s : Sweep} {objects : List LegacyObject} {final : Sweep}
      (h : s.parcels.length < (s.pass objects).parcels.length ∧ (s.pass objects).waiting ≠ [])
      (rest : Takes n (s.pass objects) (s.pass objects).waitingObjects final) :
      Takes (n + 1) s objects final

/-- A run ends in a fixed point, and every pass but the last registers something. -/
theorem Decided.run {all objects done : List LegacyObject} {s : Sweep} (h : Decided done s)
    (hperm : (done ++ objects).Perm all) :
    FixedPoint all (s.run objects) ∧
      ∃ n, Takes n s objects (s.run objects) ∧
        n + s.parcels.length ≤ (s.run objects).parcels.length + 1 := by
  -- What a pass registers pays for it; the last pass alone may register nothing
  induction s, objects using Sweep.run.induct generalizing done
  case case1 s objects next hmore hlt ih =>
    obtain ⟨done', h', hperm'⟩ := h.pass objects
    obtain ⟨hfixed, n, htakes, hle⟩ : FixedPoint all (next.run next.waitingObjects) ∧
        ∃ n, Takes n next next.waitingObjects (next.run next.waitingObjects) ∧
          n + next.parcels.length ≤ (next.run next.waitingObjects).parcels.length + 1 :=
      ih h'.toDecided (hperm'.trans hperm)
    have hrun : s.run objects = next.run next.waitingObjects := run_of_more hmore
    rw [hrun]
    refine ⟨hfixed, n + 1, .more hmore htakes, ?_⟩
    have hgrown : s.parcels.length < next.parcels.length := hmore.1
    omega
  case case2 s objects next hend =>
    obtain ⟨done', h', hperm'⟩ := h.pass objects
    have hrun : s.run objects = next.settle := run_of_last hend
    rw [hrun]
    refine ⟨h'.settle (hperm'.trans hperm) h hend, 1, .last hend, ?_⟩
    have hgrown : s.parcels.length ≤ next.parcels.length := by
      simpa using h'.grown.length_le
    show 1 + s.parcels.length ≤ next.parcels.length + 1
    omega

/-- Converting a tree in a fresh context ends in a fixed point, after a number of passes that
    the registered objects bound. -/
theorem fixedPoint_ofTree (tree : CollectedTree) (notes : List (String × Note)) :
    FixedPoint tree.objects (ofTree tree ⟨[], notes⟩) ∧
      ∃ n, Takes n (start ⟨[], notes⟩) tree.objects (ofTree tree ⟨[], notes⟩) ∧
        n ≤ (ofTree tree ⟨[], notes⟩).parcels.length + 1 :=
  (decided_start notes).run (List.Perm.refl _)

/-! ## What a fixed point says -/

namespace FixedPoint

variable {objects : List LegacyObject} {s : Sweep}

/-- Registered objects and parcels have the same origins. -/
theorem resolve_eq_some_iff (h : FixedPoint objects s) {category : Category} {origin : String}
    {id : Uuid} : s.ctx.resolve category origin = some id ↔
      (s.parcels.get? (category, origin)).isSome ∧ id = generatedId category origin := by
  rw [h.registered, Entries.isSome_get?]

/-- An object that converts has a parcel under its origin. -/
theorem isSome_of_outcome (h : FixedPoint objects s) {o : LegacyObject} {p : Parcel}
    (ho : o ∈ objects) (hout : o.outcome s.ctx = .ok p) : (s.parcels.get? o.origin).isSome :=
  (h.resolve_eq_some_iff.mp (h.closed o ho p hout)).1

/-- Every parcel is the conversion of an object of its origin. -/
theorem outcome_of_get? (h : FixedPoint objects s) {origin : Origin} {p : Parcel}
    (hp : s.parcels.get? origin = some p) :
    ∃ o ∈ objects, o.origin = origin ∧ o.outcome s.ctx = .ok p :=
  h.source _ (Entries.mem_of_get? hp)

/-- There are no more parcels than there are distinct origins. -/
theorem length_parcels_le (h : FixedPoint objects s) :
    s.parcels.length ≤ (objects.map LegacyObject.origin).dedup.length := by
  rw [← List.length_map Prod.fst]
  refine (h.nodup.subperm fun origin horigin => ?_).length_le
  obtain ⟨entry, hentry, rfl⟩ := List.mem_map.mp horigin
  obtain ⟨o, ho, hsource, -⟩ := h.source entry hentry
  exact List.mem_dedup.mpr (List.mem_map.mpr ⟨o, ho, hsource⟩)

/-- An origin that occurs once belongs to one object. -/
theorem eq_of_count_origin {o o' : LegacyObject}
    (h : (objects.map LegacyObject.origin).count o.origin = 1) (ho : o ∈ objects)
    (ho' : o' ∈ objects) (heq : o'.origin = o.origin) : o' = o := by
  obtain ⟨before, after, rfl⟩ := List.append_of_mem ho
  -- The object itself is the one occurrence, which leaves none for the others
  rw [List.map_append, List.map_cons, List.count_append, List.count_cons_self] at h
  have hbefore : o.origin ∉ before.map LegacyObject.origin := by
    rw [← List.count_eq_zero]
    omega
  have hafter : o.origin ∉ after.map LegacyObject.origin := by
    rw [← List.count_eq_zero]
    omega
  rcases List.mem_append.mp ho' with hmem | hmem
  · exact absurd (List.mem_map.mpr ⟨o', hmem, heq⟩) hbefore
  · rcases List.mem_cons.mp hmem with rfl | hmem
    · rfl
    · exact absurd (List.mem_map.mpr ⟨o', hmem, heq⟩) hafter

/-- Where an origin occurs once, its parcel is the conversion of that object. -/
theorem get?_of_outcome (h : FixedPoint objects s) {o : LegacyObject} {p : Parcel}
    (ho : o ∈ objects) (hout : o.outcome s.ctx = .ok p)
    (honce : (objects.map LegacyObject.origin).count o.origin = 1) :
    s.parcels.get? o.origin = some p := by
  obtain ⟨q, hq⟩ := Option.isSome_iff_exists.mp (h.isSome_of_outcome ho hout)
  -- Whatever object the parcel is of, it is the only one of its origin
  obtain ⟨o', ho', horigin, hout'⟩ := h.outcome_of_get? hq
  rw [eq_of_count_origin honce ho ho' horigin, hout] at hout'
  rw [hq, Except.ok.inj hout']

/-- The failures are reports on the objects that fail in the final context, one on each. -/
theorem exists_failed (h : FixedPoint objects s) :
    ∃ failed, failed.Perm (objects.filter fun o => !(o.outcome s.ctx).isOk) ∧
      List.Forall₂ (fun o f => failureIn s.ctx o = some f) failed s.failures := by
  have hreported : ∀ o : LegacyObject,
      (!(o.outcome s.ctx).isOk) = (failureIn s.ctx o).isSome := by
    intro o
    rw [failureIn]
    cases o.outcome s.ctx with
    | ok _ => rfl
    | error _ => rfl
  simp only [hreported]
  -- The failures are in the order in which they were decided, which the objects can be put in
  have hall := (forall₂_filter_filterMap (failureIn s.ctx) objects).flip
  obtain ⟨failed, hfailed, hperm⟩ := List.perm_comp_forall₂ h.failures hall
  exact ⟨failed, hperm, hfailed.flip⟩

end FixedPoint

/-- Converting a tree in a fresh context computes the fixed point of conversion. It takes at
    most one pass more than there are distinct origins. At its end the registered objects are
    those with a parcel, under their generated identifiers; an object that converts in the final
    context has a parcel under its origin, its own if no other object has that origin; and the
    failures are those of conversion in the final context, one for each object that fails in it,
    with what identifies the object and with the words of its error. -/
theorem ofTree_computes_fixedPoint (tree : CollectedTree) (notes : List (String × Note)) :
    let s := ofTree tree ⟨[], notes⟩
    (∃ n, Takes n (start ⟨[], notes⟩) tree.objects s ∧
      n ≤ (tree.objects.map LegacyObject.origin).dedup.length + 1) ∧
    (s.parcels.map Prod.fst).Nodup ∧
    (∀ category origin id, s.ctx.resolve category origin = some id ↔
      (s.parcels.get? (category, origin)).isSome ∧ id = generatedId category origin) ∧
    (∀ origin p, s.parcels.get? origin = some p →
      ∃ o ∈ tree.objects, o.origin = origin ∧ o.outcome s.ctx = .ok p) ∧
    (∀ o ∈ tree.objects, ∀ p, o.outcome s.ctx = .ok p →
      (s.parcels.get? o.origin).isSome ∧
        ((tree.objects.map LegacyObject.origin).count o.origin = 1 →
          s.parcels.get? o.origin = some p)) ∧
    ∃ failed, failed.Perm (tree.objects.filter fun o => !(o.outcome s.ctx).isOk) ∧
      List.Forall₂ (fun o f => ∃ e, o.outcome s.ctx = .error e ∧ f.origin = o.id ∧
        f.name = o.name ∧ f.category = o.category ∧ f.kind = o.kind ∧ f.error = e.message)
        failed s.failures := by
  intro s
  obtain ⟨hfixed, n, htakes, hle⟩ := fixedPoint_ofTree tree notes
  refine ⟨⟨n, htakes, ?_⟩, hfixed.nodup, fun _ _ _ => hfixed.resolve_eq_some_iff, ?_, ?_, ?_⟩
  · have hdistinct := hfixed.length_parcels_le
    omega
  · intro origin p hp
    exact hfixed.outcome_of_get? hp
  · intro o ho p hp
    exact ⟨hfixed.isSome_of_outcome ho hp, hfixed.get?_of_outcome ho hp⟩
  · obtain ⟨failed, hperm, hreports⟩ := hfixed.exists_failed
    exact ⟨failed, hperm, hreports.imp fun o f => of_failureIn_eq_some⟩

end Sweep

end ProfileMigration
