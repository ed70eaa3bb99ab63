/-
  ProfileMigration.Proofs.Template.Reading

  What values read from a definition refer to:

    Yields                      -- what holds of everything a conversion gives
    Template.Given              -- a value that is there refers to certain objects only
    Template.ResolvesTo         -- a context resolves to certain objects only
    Template.yields_reference   -- references are to objects that the context resolves
    Template.intOpt_congr, …    -- readers go by what is configured
    Template.refersOnly_assemble -- assembled field trees refer to what their values refer to

  Reading takes values over as they are or makes literals of them, so that nothing new is
  referred to.
-/
import ProfileMigration.Proofs.Field.ReferenceBounds
import ProfileMigration.Proofs.Identity.UuidText
import ProfileMigration.Template.Reading

namespace ProfileMigration

/-! ## What conversions give -/

/-- Everything that a conversion gives has a property. -/
def Yields {α : Type} (P : α → Prop) (x : Converted α) : Prop := ∀ a, x = .ok a → P a

namespace Yields

variable {α β : Type} {P : α → Prop} {Q : β → Prop}

theorem any (x : Converted α) : Yields (fun _ => True) x := fun _ _ => trivial

theorem ok {a : α} (h : P a) : Yields P (.ok a) := by
  intro b hb
  rw [← Except.ok.inj hb]
  exact h

theorem pure {a : α} (h : P a) : Yields P (Pure.pure a) := ok h

theorem error (e : ConversionError) : Yields P (.error e) := nofun

theorem mono {P' : α → Prop} {x : Converted α} (h : Yields P x) (hP : ∀ a, P a → P' a) :
    Yields P' x :=
  fun a ha => hP a (h a ha)

theorem bind {x : Converted α} {f : α → Converted β} (hx : Yields P x)
    (hf : ∀ a, P a → Yields Q (f a)) : Yields Q (x >>= f) := by
  intro b hb
  cases hxa : x with
  | error e =>
    rw [hxa] at hb
    cases hb
  | ok a =>
    rw [hxa] at hb
    exact hf a (hx a hxa) b hb

/-- What a conversion gives is what it gives. -/
theorem self (x : Converted α) : Yields (fun a => x = .ok a) x := fun _ h => h

theorem and {P' : α → Prop} {x : Converted α} (h : Yields P x) (h' : Yields P' x) :
    Yields (fun a => P a ∧ P' a) x :=
  fun a ha => ⟨h a ha, h' a ha⟩

/-- What is read first does not matter to what every rest gives. -/
theorem bind_any {x : Converted α} {f : α → Converted β} (hf : ∀ a, Yields Q (f a)) :
    Yields Q (x >>= f) :=
  (any x).bind fun a _ => hf a

theorem map {x : Converted α} {f : α → β} (hx : Yields P x) (hf : ∀ a, P a → Q (f a)) :
    Yields Q (x.map f) := by
  intro b hb
  cases hxa : x with
  | error e =>
    rw [hxa] at hb
    cases hb
  | ok a =>
    rw [hxa] at hb
    rw [← Except.ok.inj hb]
    exact hf a (hx a hxa)

theorem mapM {f : α → Converted β} {l : List α} (hf : ∀ a ∈ l, Yields Q (f a)) :
    Yields (fun bs => ∀ b ∈ bs, Q b) (l.mapM f) := by
  induction l with
  | nil =>
    rw [List.mapM_nil]
    exact .pure nofun
  | cons a rest ih =>
    obtain ⟨ha, hrest⟩ := List.forall_mem_cons.mp hf
    rw [List.mapM_cons]
    refine ha.bind fun b hb => (ih hrest).bind fun bs hbs => .pure ?_
    exact List.forall_mem_cons.mpr ⟨hb, hbs⟩

theorem foldlM {f : β → α → Converted β} {l : List α}
    (hf : ∀ a ∈ l, ∀ b, Q b → Yields Q (f b a)) {b : β} (hb : Q b) :
    Yields Q (l.foldlM f b) := by
  induction l generalizing b with
  | nil =>
    rw [List.foldlM_nil]
    exact .pure hb
  | cons a rest ih =>
    obtain ⟨ha, hrest⟩ := List.forall_mem_cons.mp hf
    rw [List.foldlM_cons]
    exact (ha b hb).bind fun b' hb' => ih hrest hb'

end Yields

/-! ## Reading fields -/

namespace Template

variable {S : Uuid → Prop} {values : FieldMap}

/-- A value that is there refers to objects of a given kind only. -/
def Given (S : Uuid → Prop) (v? : Option TypedValue) : Prop :=
  ∀ v, v? = some v → v.RefersOnly S

theorem given_some_iff {v : TypedValue} : Given S (some v) ↔ v.RefersOnly S :=
  ⟨fun h => h v rfl, fun h w hw => by rwa [← Option.some.inj hw]⟩

theorem given_configured? (h : values.RefersOnly S) (path : String) :
    Given S (configured? values path) := by
  intro v hv
  rw [configured?] at hv
  exact h.value? (Option.filter_eq_some_iff.mp hv).1

theorem yields_required (h : values.RefersOnly S) (path : String) :
    Yields (·.RefersOnly S) (required values path) := by
  rw [required]
  cases hv : configured? values path with
  | none => exact .error _
  | some v => exact .ok (given_configured? h path v hv)

theorem refersOnly_orDefault (h : values.RefersOnly S) (path : String) (default : Literal) :
    (orDefault values path default).RefersOnly S := by
  rw [orDefault]
  cases hv : configured? values path with
  | none => exact TypedValue.refersOnly_fixed default
  | some v => exact given_configured? h path v hv

theorem yields_coerceWith (read : Literal → Converted Literal) {v : TypedValue}
    (hv : v.RefersOnly S) : Yields (·.RefersOnly S) (coerceWith read v) := by
  unfold coerceWith
  split
  · exact (Yields.any _).map fun l _ => TypedValue.refersOnly_fixed l
  · exact (Yields.any _).map fun l _ => TypedValue.refersOnly_inherited _
  · exact .ok hv
  · exact .ok hv

theorem refersOnly_toText {v : TypedValue} (hv : v.RefersOnly S) : (toText v).RefersOnly S := by
  unfold toText
  split
  · exact hv
  · exact hv
  · exact TypedValue.refersOnly_fixed _
  · exact hv

theorem yields_intOpt (h : values.RefersOnly S) (path : String) :
    Yields (Given S) (intOpt values path) := by
  rw [intOpt]
  cases hv : configured? values path with
  | none => exact .ok nofun
  | some v =>
    exact (yields_coerceWith _ (given_configured? h path v hv)).map fun w => given_some_iff.mpr

theorem yields_intOr (h : values.RefersOnly S) (path : String) (default : Int64) :
    Yields (·.RefersOnly S) (intOr values path default) :=
  yields_coerceWith _ (refersOnly_orDefault h path _)

theorem yields_intRequired (h : values.RefersOnly S) (path : String) :
    Yields (·.RefersOnly S) (intRequired values path) :=
  (yields_required h path).bind fun _ hv => yields_coerceWith _ hv

theorem yields_boolOr (h : values.RefersOnly S) (path : String) (default : Bool) :
    Yields (·.RefersOnly S) (boolOr values path default) :=
  yields_coerceWith _ (refersOnly_orDefault h path _)

theorem given_textOpt (h : values.RefersOnly S) (path : String) :
    Given S (textOpt values path) := by
  intro v hv
  obtain ⟨w, hw, rfl⟩ := Option.map_eq_some_iff.mp hv
  exact refersOnly_toText (given_configured? h path w hw)

theorem yields_textRequired (h : values.RefersOnly S) (path : String) :
    Yields (·.RefersOnly S) (textRequired values path) :=
  (yields_required h path).map fun _ hv => refersOnly_toText hv

theorem given_textOr (h : values.RefersOnly S) (path default : String) :
    Given S (some (textOr values path default)) :=
  given_some_iff.mpr (refersOnly_orDefault h path _)

theorem yields_required_configured (values : FieldMap) (path : String) :
    Yields (fun v => configured? values path = some v) (required values path) := by
  rw [required]
  split
  · rename_i v hv
    exact .ok hv
  · exact .error _

theorem yields_textRequired_textOpt (values : FieldMap) (path : String) :
    Yields (fun v => textOpt values path = some v) (textRequired values path) := by
  refine (yields_required_configured values path).map fun v hv => ?_
  rw [textOpt, hv, Option.map_some]

theorem yields_fixedText (values : FieldMap) (path reported : String) :
    Yields (fun s => fixedText? values path = .ok (some s)) (fixedText values path reported) := by
  rw [fixedText]
  refine (Yields.self _).bind fun s? hs => ?_
  cases s? with
  | none => exact .error _
  | some s => exact .ok hs

/-- Every object of a family that a context resolves is of a given kind. -/
def ResolvesTo (S : Uuid → Prop) (ctx : Context) (category : Category) : Prop :=
  ∀ origin id, ctx.resolve category origin = some id → S id

/-- A reference is to an object that the context resolves. -/
theorem yields_reference {ctx : Context} {category : Category} (hS : ResolvesTo S ctx category)
    (origin : String) : Yields (Field.RefersOnly S) (reference ctx category origin) := by
  rw [reference]
  cases hid : ctx.resolve category origin with
  | none => exact .error _
  | some id =>
    refine .ok (Field.refersOnly_group_iff.mpr (FieldMap.refersOnly_cons_iff.mpr
      ⟨Field.refersOnly_value_iff.mpr ?_, FieldMap.refersOnly_nil⟩))
    -- A reference is the text of the identifier, from which it reads back
    intro id' hid'
    have htext : Uuid.ofText? id.text = some id' := hid'
    rw [Uuid.ofText?_text] at htext
    exact hS origin id' (Option.some.inj htext ▸ hid)

/-! ## Trees with the same configured -/

section Same

variable {values' : FieldMap} {path : String}

theorem required_congr (h : configured? values' path = configured? values path) :
    required values' path = required values path := by
  rw [required, required, h]

theorem orDefault_congr (h : configured? values' path = configured? values path)
    (default : Literal) : orDefault values' path default = orDefault values path default := by
  rw [orDefault, orDefault, h]

theorem intOpt_congr (h : configured? values' path = configured? values path) :
    intOpt values' path = intOpt values path := by
  rw [intOpt, intOpt, h]

theorem intOr_congr (h : configured? values' path = configured? values path) (default : Int64) :
    intOr values' path default = intOr values path default := by
  rw [intOr, intOr, orDefault_congr h]

theorem intRequired_congr (h : configured? values' path = configured? values path) :
    intRequired values' path = intRequired values path := by
  rw [intRequired, intRequired, required_congr h]

theorem boolOr_congr (h : configured? values' path = configured? values path) (default : Bool) :
    boolOr values' path default = boolOr values path default := by
  rw [boolOr, boolOr, orDefault_congr h]

theorem textOpt_congr (h : configured? values' path = configured? values path) :
    textOpt values' path = textOpt values path := by
  rw [textOpt, textOpt, h]

theorem textRequired_congr (h : configured? values' path = configured? values path) :
    textRequired values' path = textRequired values path := by
  rw [textRequired, textRequired, required_congr h]

theorem textOr_congr (h : configured? values' path = configured? values path)
    (default : String) : textOr values' path default = textOr values path default :=
  orDefault_congr h (.str default)

theorem fixedText?_congr (h : configured? values' path = configured? values path) :
    fixedText? values' path = fixedText? values path := by
  rw [fixedText?, fixedText?, h]

theorem fixedText_congr (h : configured? values' path = configured? values path)
    (reported : String) : fixedText values' path reported = fixedText values path reported := by
  rw [fixedText, fixedText, fixedText?_congr h]

end Same

/-! ## Assembling -/

theorem refersOnly_put {data : FieldMap} (h : data.RefersOnly S) {v : TypedValue}
    (hv : v.RefersOnly S) (path : String) : (put data path v).RefersOnly S :=
  h.set (Field.refersOnly_value_iff.mpr hv) path

theorem refersOnly_assemble {entries : List (String × Option TypedValue)}
    (h : ∀ e ∈ entries, Given S e.2) : FieldMap.RefersOnly S (assemble entries) := by
  rw [assemble]
  -- The tree that has been assembled so far may be any that refers to nothing else
  have hstart : FieldMap.RefersOnly S [] := FieldMap.refersOnly_nil
  generalize ([] : FieldMap) = data at hstart
  induction entries generalizing data with
  | nil => exact hstart
  | cons entry rest ih =>
    obtain ⟨path, v?⟩ := entry
    obtain ⟨hv, hrest⟩ := List.forall_mem_cons.mp h
    rw [List.foldl_cons]
    refine ih hrest _ ?_
    cases v? with
    | none => exact hstart
    | some v => exact refersOnly_put hstart (given_some_iff.mp hv) path

theorem refersOnly_withItems {data : FieldMap} (h : data.RefersOnly S) {rows : List FieldMap}
    (hrows : ∀ row ∈ rows, FieldMap.RefersOnly S row) (name : String) :
    (withItems data name rows).RefersOnly S := by
  rw [withItems]
  split
  · exact h
  · exact h.insert (Field.refersOnly_items_iff.mpr hrows) name

end Template

end ProfileMigration
