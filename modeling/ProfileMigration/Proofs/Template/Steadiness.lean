/-
  ProfileMigration.Proofs.Template.Steadiness

  What conversion reads from its context stays when more objects are registered:

    Context.Within      -- everything found in one context is found in another as well
    Steady              -- a conversion that keeps its outcome in wider contexts, unless an
                           object that it missed has been registered
    steady_content      -- every template is steady
    convert_eq_ok_iff   -- what a converted object is
    content_of_convert  -- what its template has made of the definition
    steady_convert      -- the conversion of every object is steady

  Only the lookup of a reference reads the context. The outcome of everything before the first
  missing reference is therefore final, and a conversion that misses one can only change.
-/
import ProfileMigration.Template.Conversion

namespace ProfileMigration

namespace Context

/-- Everything found in one context is found in the other under the same identifier. -/
def Within (c c' : Context) : Prop :=
  ∀ category origin id, c.resolve category origin = some id →
    c'.resolve category origin = some id

theorem Within.refl (c : Context) : c.Within c := fun _ _ _ h => h

theorem Within.trans {a b c : Context} (hab : a.Within b) (hbc : b.Within c) : a.Within c :=
  fun category origin id h => hbc category origin id (hab category origin id h)

/-- A context only grows: an object that is registered again keeps its identifier. -/
theorem within_register (c : Context) (category : Category) (origin : String) :
    c.Within (c.register category origin).2 := by
  intro category' origin' id h
  rw [resolve_register]
  by_cases hsame : category' = category ∧ origin' = origin
  · obtain ⟨rfl, rfl⟩ := hsame
    rw [if_pos ⟨rfl, rfl⟩, register_fst, h]
    rfl
  · rw [if_neg hsame, h]

end Context

/-- A conversion keeps its outcome in every wider context, unless it missed an object that the
    wider context has. -/
def Steady {α : Type} (f : Context → Converted α) : Prop :=
  ∀ ⦃c c' : Context⦄, c.Within c' →
    f c' = f c ∨ ∃ category id, f c = .error (.unresolved category id) ∧
      c.resolve category id = none ∧ (c'.resolve category id).isSome

namespace Steady

variable {α β : Type}

/-- What does not read the context is steady. -/
theorem const (x : Converted α) : Steady fun _ => x := fun _ _ _ => .inl rfl

theorem bind {f : Context → Converted α} {g : Context → α → Converted β} (hf : Steady f)
    (hg : ∀ a, Steady fun c => g c a) : Steady fun c => f c >>= g c := by
  intro c c' hc
  rcases hf hc with heq | ⟨category, id, hmissing, hnew⟩
  · -- The first part is as it was, so the outcome depends on the second
    cases hfc : f c with
    | ok a =>
      rcases hg a hc with heq' | ⟨category, id, hmissing, hnew⟩
      · left
        simp only [heq, hfc]
        exact heq'
      · right
        refine ⟨category, id, ?_, hnew⟩
        simp only [hfc]
        exact hmissing
    | error e =>
      left
      simp only [heq, hfc]
      rfl
  · -- The first part missed an object, and the second was not reached
    right
    refine ⟨category, id, ?_, hnew⟩
    simp only [hmissing]
    rfl

theorem map {f : Context → Converted α} (g : α → β) (hf : Steady f) :
    Steady fun c => (f c).map g := by
  intro c c' hc
  rcases hf hc with heq | ⟨category, id, hmissing, hnew⟩
  · left
    simp only [heq]
  · right
    refine ⟨category, id, ?_, hnew⟩
    simp only [hmissing]
    rfl

theorem mapM {f : Context → α → Converted β} (hf : ∀ a, Steady fun c => f c a) (l : List α) :
    Steady fun c => l.mapM (f c) := by
  induction l with
  | nil =>
    simp only [List.mapM_nil]
    exact const _
  | cons a rest ih =>
    simp only [List.mapM_cons]
    exact (hf a).bind fun b => ih.bind fun bs => const _

theorem foldlM {f : Context → β → α → Converted β} (hf : ∀ b a, Steady fun c => f c b a)
    (l : List α) (b : β) : Steady fun c => l.foldlM (f c) b := by
  induction l generalizing b with
  | nil =>
    simp only [List.foldlM_nil]
    exact const _
  | cons a rest ih =>
    simp only [List.foldlM_cons]
    exact (hf b a).bind fun b' => ih b'

end Steady

namespace Template

/-! ## Templates that refer to other objects -/

theorem steady_reference (category : Category) (origin : String) :
    Steady fun c => reference c category origin := by
  intro c c' hc
  simp only [reference]
  cases hold : c.resolve category origin with
  | some id =>
    left
    rw [hc category origin id hold]
  | none =>
    cases hnew : c'.resolve category origin with
    | none => exact .inl rfl
    | some id => exact .inr ⟨category, origin, rfl, hold, Option.isSome_of_eq_some hnew⟩

theorem steady_withRoutePolicy (slots : PolicySlots) (data policy : FieldMap) :
    Steady fun c => withRoutePolicy c slots data policy := by
  unfold withRoutePolicy
  refine (Steady.const _).bind fun origin => (Steady.const _).bind fun direction =>
    (Steady.const _).bind fun slot => ?_
  by_cases hfree : data.has slot
  · simp only [hfree]
    exact .const _
  · simp only [hfree]
    exact (steady_reference .policyDefinition origin).bind fun field => .const _

theorem steady_withRoutePolicies (slots : PolicySlots) (values data : FieldMap) :
    Steady fun c => withRoutePolicies c slots values data :=
  Steady.foldlM (fun data policy => steady_withRoutePolicy slots data policy) _ data

theorem steady_neighbor (values : FieldMap) : Steady fun c => neighbor c values := by
  unfold neighbor
  refine (Steady.const _).bind fun address => (Steady.const _).bind fun remote =>
    (Steady.const _).bind fun shutdown => (Steady.const _).bind fun communities => ?_
  refine Steady.bind (Steady.mapM (fun family => ?_) _) fun rows => .const _
  exact (Steady.const _).bind fun type => steady_withRoutePolicies familySlots family _

theorem steady_bgp (values : FieldMap) : Steady fun c => bgp c values :=
  (Steady.const _).bind fun _ => (Steady.mapM steady_neighbor _).bind fun _ => .const _

theorem steady_ospf (values : FieldMap) : Steady fun c => ospf c values := by
  unfold ospf
  refine (Steady.const _).bind fun external => (Steady.const _).bind fun inter =>
    (Steady.const _).bind fun intra => (Steady.const _).bind fun areas => ?_
  exact steady_withRoutePolicies ospfSlots _ _

theorem steady_withMatch (data entry : FieldMap) : Steady fun c => withMatch c data entry := by
  unfold withMatch
  refine (Steady.const _).bind fun field => ?_
  cases listSlot? field with
  | none => exact .const _
  | some slot =>
    refine (Steady.const _).bind fun origin => ?_
    exact (steady_reference .policyList origin).bind fun field => .const _

theorem steady_routePolicy (values : FieldMap) : Steady fun c => routePolicy c values := by
  unfold routePolicy
  refine Steady.bind (Steady.mapM (fun row => ?_) _) fun sequences => .const _
  unfold policySequence
  refine (Steady.const _).bind fun id => ?_
  exact (Steady.foldlM steady_withMatch _ _).bind fun entries => .const _

/-- Every template keeps its outcome in wider contexts; most do not read the context at all. -/
theorem steady_content : ∀ t ∈ all, ∀ values, Steady fun c => t.content c values := by
  simp only [all, List.forall_mem_cons]
  refine ⟨?basic, ?banner, ?logging, ?ntp, ?bfd, ?omp, ?vpn, ?ethernet, ?bgp, ?ospf, ?policy,
    ?list, by simp⟩
  case bgp => exact fun values => (steady_bgp values).map _
  case ospf => exact fun values => (steady_ospf values).map _
  case policy => exact fun values => (steady_routePolicy values).map _
  all_goals exact fun values => .const _

end Template

/-! ## The conversion of an object -/

theorem template?_mem {kind : String} {t : Template} (h : template? kind = some t) :
    t ∈ Template.all :=
  List.mem_of_find?_eq_some h

/-- A converted object is a parcel under the given identifier, with what its template makes of
    the definition. -/
theorem convert_eq_ok_iff {o : LegacyObject} {id : Uuid} {c : Context} {p : Parcel} :
    convert o id c = .ok p ↔ ∃ t type data, template? o.kind = some t ∧
      t.content c (Legacy.normalize t.hints o.definition) = .ok (type, data) ∧
      p = ⟨some id, o.name, o.description, type, data⟩ := by
  rw [convert]
  cases ht : template? o.kind with
  | none => simp
  | some t =>
    cases hcontent : t.content c (Legacy.normalize t.hints o.definition) with
    | error e => simp [hcontent, Except.map]
    | ok made =>
      simp only [hcontent, Except.map, Except.ok.injEq, Option.some.injEq]
      constructor
      · rintro rfl
        exact ⟨t, made.1, made.2, rfl, hcontent, rfl⟩
      · rintro ⟨_, type, data, rfl, hmade, rfl⟩
        rw [hcontent] at hmade
        rw [Except.ok.inj hmade]

/-- What the template of an object has made of its definition. -/
theorem content_of_convert {o : LegacyObject} {id : Uuid} {c : Context} {p : Parcel}
    {t : Template} (ht : template? o.kind = some t) (h : convert o id c = .ok p) :
    t.content c (Legacy.normalize t.hints o.definition) = .ok (p.type, p.data) := by
  obtain ⟨t', type, data, ht', hcontent, rfl⟩ := convert_eq_ok_iff.mp h
  obtain rfl := Option.some.inj (ht'.symm.trans ht)
  exact hcontent

/-- The same for a template whose parcels are all of one type. -/
theorem data_of_convert {o : LegacyObject} {id : Uuid} {c : Context} {p : Parcel} {kind : String}
    {hints : Hints} {type : ParcelType} {content : Context → FieldMap → Converted FieldMap}
    (ht : template? o.kind = some (.referring kind hints type content))
    (h : convert o id c = .ok p) :
    content c (Legacy.normalize hints o.definition) = .ok p.data := by
  have hmade : (content c (Legacy.normalize hints o.definition)).map (type, ·) =
      .ok (p.type, p.data) := content_of_convert ht h
  cases hdata : content c (Legacy.normalize hints o.definition) with
  | error e =>
    rw [hdata] at hmade
    cases hmade
  | ok data =>
    rw [hdata] at hmade
    rw [(Prod.mk.inj (Except.ok.inj hmade)).2]

/-- The conversion of an object keeps its outcome in wider contexts. -/
theorem steady_convert (o : LegacyObject) (id : Uuid) : Steady fun c => convert o id c := by
  unfold convert
  cases ht : template? o.kind with
  | none => exact .const _
  | some t => exact (Template.steady_content t (template?_mem ht) _).map _

end ProfileMigration
