/-
  ProfileMigration.Proofs.Legacy.Registration

  What a context knows after any calls:

    idName_injective            -- every object has a name of its own, whatever its legacy id is
    Uuid.Collision              -- two messages with one digest
    generatedId_eq_iff          -- different objects have the same identifier only by one
    AnyOf.as?_eq_some_iff       -- a value is read at its own type, and at no other
    Keyed.Last                  -- the last entry with a key
    Context.Call / after        -- calls on a context, and a new context after some
    Context.Knows               -- a context knows what has been registered and kept in calls
    Context.Knows.run / knows_after -- it does after one more call, so after all
    Context.after_exact         -- what it stores, and what it answers

  Only registering and keeping change a context. How often and in which order objects are registered
  does not show in any answer.
-/
import Mathlib.Data.Finset.Card
import ProfileMigration.Legacy.Context
import ProfileMigration.Proofs.Field.Segments

namespace ProfileMigration

/-! ## Names of objects -/

theorem Category.single_text (c : Category) : Path.Single c.text := by
  cases c
  all_goals decide +kernel

theorem Category.text_injective : Function.Injective Category.text := by
  intro c c' h
  have hread := congrArg Category.ofText? h
  rw [Category.ofText?_text, Category.ofText?_text] at hread
  exact Option.some.inj hread

/-- A name begins with the family, which has no slash, so a legacy id may have any. -/
theorem idName_injective : Function.Injective fun o : Category × String => idName o.1 o.2 := by
  rintro ⟨c, origin⟩ ⟨c', origin'⟩ h
  have hname : c.text ++ "/" ++ origin = c'.text ++ "/" ++ origin' := h
  have hsegments := congrArg Path.segments hname
  rw [Path.segments_below c.single_text, Path.segments_below c'.single_text] at hsegments
  obtain rfl : c = c' := Category.text_injective (List.cons.inj hsegments).1
  rw [(String.append_right_inj (c.text ++ "/")).mp hname]

/-! ## Digests of names -/

theorem toList_loop (bytes : ByteArray) (i : Nat) (done : List UInt8) :
    ByteArray.toList.loop bytes i done = done.reverse ++ bytes.data.toList.drop i := by
  fun_induction ByteArray.toList.loop bytes i done with
  | case1 i done h ih =>
    have hi : i < bytes.data.toList.length := h
    have hget : bytes.get! i = bytes.data.toList[i] := by
      rw [ByteArray.get!, getElem!_pos bytes.data i hi, Array.getElem_toList]
    rw [ih, List.reverse_cons, List.append_assoc, List.singleton_append, hget,
      ← List.drop_eq_getElem_cons hi]
  | case2 i done h =>
    have hle : bytes.data.toList.length ≤ i := Nat.le_of_not_lt h
    rw [List.drop_of_length_le hle, List.append_nil]

/-- Different texts have different bytes. -/
theorem toList_toUTF8_injective : Function.Injective fun s : String => s.toUTF8.toList := by
  intro s t h
  have hbytes : s.toUTF8.toList = t.toUTF8.toList := h
  rw [ByteArray.toList, ByteArray.toList, toList_loop, toList_loop] at hbytes
  exact String.toByteArray_inj.mp (ByteArray.ext (Array.toList_inj.mp hbytes))

namespace Uuid

/-- The identifier of a message: the first sixteen bytes of its digest, stamped. -/
def ofMessage (message : List UInt8) : Uuid := (ofBytes ((Sha1.digest message).take 16)).stamped

/-- Two messages with the same identifier. -/
def Collision (message message' : List UInt8) : Prop :=
  message ≠ message' ∧ ofMessage message = ofMessage message'

end Uuid

/-- The message that the identifier of an object is made from. -/
def idMessage (category : Category) (origin : String) : List UInt8 :=
  idSpace.bytes ++ (idName category origin).toUTF8.toList

theorem generatedId_eq_ofMessage (category : Category) (origin : String) :
    generatedId category origin = Uuid.ofMessage (idMessage category origin) := rfl

theorem idMessage_injective :
    Function.Injective fun o : Category × String => idMessage o.1 o.2 := by
  intro o o' h
  have hname := List.append_cancel_left h
  exact idName_injective (toList_toUTF8_injective hname)

/-- Different objects have different messages, so only a collision gives them one identifier. -/
theorem generatedId_eq_iff {o o' : Category × String} :
    generatedId o.1 o.2 = generatedId o'.1 o'.2 ↔
      o = o' ∨ Uuid.Collision (idMessage o.1 o.2) (idMessage o'.1 o'.2) := by
  rw [generatedId_eq_ofMessage, generatedId_eq_ofMessage]
  constructor
  · intro h
    by_cases hsame : o = o'
    · exact .inl hsame
    · exact .inr ⟨fun hmessage => hsame (idMessage_injective hmessage), h⟩
  · rintro (rfl | hcollision)
    · rfl
    · exact hcollision.2

/-! ## Values of any type -/

section Values

variable {τ : Type} [DecidableEq τ] {Content : τ → Type}

theorem AnyOf.as?_eq_some_iff {value : AnyOf Content} {type : τ} {content : Content type} :
    value.as? type = some content ↔ value = ⟨type, content⟩ := by
  obtain ⟨own, inner⟩ := value
  rw [AnyOf.as?]
  by_cases htype : own = type
  · subst htype
    rw [dif_pos rfl, Option.some_inj, AnyOf.mk.injEq]
    exact ⟨fun h => ⟨rfl, heq_of_eq h⟩, fun h => eq_of_heq h.2⟩
  · rw [dif_neg htype]
    refine iff_of_false (Option.some_ne_none _).symm fun h => htype ?_
    exact congrArg AnyOf.type h

end Values

namespace Keyed

variable {α : Type} {key : String} {value : α} {entries : List (String × α)} {e : String × α}

/-- The last entry with a key has a value. -/
def Last (key : String) (value : α) (entries : List (String × α)) : Prop :=
  ∃ before after, entries = before ++ (key, value) :: after ∧ ∀ e ∈ after, e.1 ≠ key

theorem not_last_nil : ¬ Last key value [] := by
  rintro ⟨before, after, h, -⟩
  exact List.append_ne_nil_of_right_ne_nil before (List.cons_ne_nil _ after) h.symm

theorem last_append_singleton_iff :
    Last key value (entries ++ [e]) ↔ e = (key, value) ∨ e.1 ≠ key ∧ Last key value entries := by
  constructor
  · rintro ⟨before, after, h, hafter⟩
    rcases List.eq_nil_or_concat after with rfl | ⟨after', last, rfl⟩
    case inl => exact .inl (List.cons.inj (List.append_inj_right' h rfl)).1
    case inr =>
      rw [List.concat_eq_append, ← List.cons_append, ← List.append_assoc] at h
      obtain ⟨rfl, hlast⟩ := List.append_inj' h rfl
      obtain rfl := (List.cons.inj hlast).1
      rw [List.concat_eq_append, List.forall_mem_append, List.forall_mem_singleton] at hafter
      exact .inr ⟨hafter.2, before, after', rfl, hafter.1⟩
  · rintro (rfl | ⟨hne, before, after, rfl, hafter⟩)
    · exact ⟨entries, [], rfl, List.forall_mem_nil _⟩
    · refine ⟨before, after ++ [e], ?_, ?_⟩
      · rw [List.append_assoc, List.cons_append]
      · exact List.forall_mem_append.mpr ⟨hafter, List.forall_mem_singleton.mpr hne⟩

end Keyed

namespace Context

/-! ## Calls -/

/-- A call on a context. -/
inductive Call {τ : Type} (Content : τ → Type) where
  | register (category : Category) (origin : String)
  | attach (name : String) (value : AnyOf Content)
  | resolve (category : Category) (origin : String)
  | get (type : τ) (name : String)

variable {τ : Type} {Content : τ → Type} {ctx : Context (AnyOf Content)}
  {calls : List (Call Content)}

/-- The context after a call. Asking leaves it as it is. -/
def Call.run (ctx : Context (AnyOf Content)) : Call Content → Context (AnyOf Content)
  | .register category origin => (ctx.register category origin).2
  | .attach name value => ctx.attach name value
  | .resolve _ _ | .get _ _ => ctx

/-- A new context after some calls. -/
def after (calls : List (Call Content)) : Context (AnyOf Content) := calls.foldl Call.run empty

/-- What a call keeps, and under which name. -/
def Call.kept? : Call Content → Option (String × AnyOf Content)
  | .attach name value => some (name, value)
  | .register _ _ | .resolve _ _ | .get _ _ => none

/-- What calls keep under names, in their order. -/
def kept (calls : List (Call Content)) : List (String × AnyOf Content) :=
  calls.filterMap Call.kept?

theorem mem_append_singleton {call call' : Call Content} :
    call' ∈ calls ++ [call] ↔ call' ∈ calls ∨ call' = call := by
  rw [List.mem_append, List.mem_singleton]

/-! ## What calls leave behind -/

/-- A context knows what has been registered in calls, and under every name what has been kept
    there last. A family has one list of entries and an object one entry in it, which is its
    generated identifier. -/
structure Knows (ctx : Context (AnyOf Content)) (calls : List (Call Content)) : Prop where
  families : (ctx.ids.map Prod.fst).Nodup
  origins : ∀ entry ∈ ctx.ids, (entry.2.map Prod.fst).Nodup
  stored : ∀ category origin id, ctx.resolve category origin = some id ↔
    .register category origin ∈ calls ∧ id = generatedId category origin
  last : ∀ name value, Keyed.get? name ctx.notes = some value ↔ Keyed.Last name value (kept calls)

theorem knows_empty : Knows (empty : Context (AnyOf Content)) [] where
  families := List.nodup_nil
  origins := List.forall_mem_nil _
  stored := fun _ _ _ => iff_of_false (Option.some_ne_none _).symm fun h => List.not_mem_nil h.1
  last := fun _ _ => iff_of_false (Option.some_ne_none _).symm Keyed.not_last_nil

theorem kept_append (calls : List (Call Content)) (call : Call Content) :
    kept (calls ++ [call]) = kept calls ++ call.kept?.toList := by
  rw [kept, kept, List.filterMap_append]
  cases call
  all_goals rfl

/-- An object gets its generated identifier, be it the first time that it is registered or
    not. -/
theorem Knows.register_fst (h : ctx.Knows calls) (category : Category) (origin : String) :
    (ctx.register category origin).1 = generatedId category origin := by
  rw [Context.register_fst]
  cases hid : ctx.resolve category origin with
  | none => rfl
  | some id => exact ((h.stored category origin id).mp hid).2

theorem Knows.register (h : ctx.Knows calls) (category : Category) (origin : String) :
    (ctx.register category origin).2.Knows (calls ++ [.register category origin]) where
  families := Entries.nodup_assign (Entries.nodup_orInsert h.families category []) category _
  origins := by
    -- The family, be it new or not, gets one entry at most
    let Once := fun family : Entries String Uuid => (family.map Prod.fst).Nodup
    have hnil : Once [] := List.nodup_nil
    have hfamily := Entries.forall_orInsert (P := Once) h.origins category hnil
    exact Entries.forall_assign (P := Once) hfamily.2 (Entries.nodup_orInsert hfamily.1 origin _)
  stored := by
    intro category' origin' id
    rw [resolve_register, h.register_fst, mem_append_singleton, Call.register.injEq]
    by_cases hsame : category' = category ∧ origin' = origin
    · obtain ⟨rfl, rfl⟩ := hsame
      simp [eq_comm]
    · rw [if_neg hsame, h.stored, or_iff_left hsame]
  last := by
    intro name value
    rw [notes_register, kept_append, h.last]
    show _ ↔ Keyed.Last name value (kept calls ++ [])
    rw [List.append_nil]

theorem Knows.attach (h : ctx.Knows calls) (name : String) (value : AnyOf Content) :
    (ctx.attach name value).Knows (calls ++ [.attach name value]) where
  families := h.families
  origins := h.origins
  stored := by
    intro category origin id
    rw [mem_append_singleton, or_iff_left nofun]
    exact h.stored category origin id
  last := by
    intro name' value'
    rw [kept_append]
    show Keyed.get? name' (Keyed.insert name value ctx.notes) = some value' ↔
      Keyed.Last name' value' (kept calls ++ [(name, value)])
    rw [Keyed.last_append_singleton_iff, Prod.mk.injEq]
    by_cases hname : name = name'
    · -- What was kept under the name before is gone
      subst hname
      rw [Keyed.get?_insert_self, Option.some_inj]
      exact ⟨fun h => .inl ⟨rfl, h⟩, fun h => (h.resolve_right fun h => h.1 rfl).2⟩
    · rw [Keyed.get?_insert_of_ne (Ne.symm hname), h.last]
      exact ⟨fun h => .inr ⟨hname, h⟩, fun h => (h.resolve_left fun h => hname h.1).2⟩

/-- A call that only asks tells a context nothing. -/
theorem Knows.ask (h : ctx.Knows calls) {call : Call Content} (hkept : call.kept? = none)
    (hcall : ∀ category origin, call ≠ .register category origin) :
    ctx.Knows (calls ++ [call]) where
  families := h.families
  origins := h.origins
  stored := by
    intro category origin id
    rw [mem_append_singleton, or_iff_left (hcall category origin).symm]
    exact h.stored category origin id
  last := by
    intro name value
    rw [kept_append, hkept, Option.toList_none, List.append_nil]
    exact h.last name value

/-- A context knows what it has known and what one more call tells it. -/
theorem Knows.run (h : ctx.Knows calls) (call : Call Content) :
    (call.run ctx).Knows (calls ++ [call]) := by
  cases call with
  | register category origin => exact h.register category origin
  | attach name value => exact h.attach name value
  | resolve category origin => exact h.ask rfl nofun
  | get type name => exact h.ask rfl nofun

theorem knows_after (calls : List (Call Content)) : (after calls).Knows calls := by
  induction calls using List.reverseRecOn with
  | nil => exact knows_empty
  | append_singleton calls call ih =>
    rw [after, List.foldl_append]
    exact ih.run call

/-! ## What a context answers -/

/-- The entries of a family are those of its registered objects. -/
theorem Knows.mem_family_iff (h : ctx.Knows calls) {category : Category}
    {family : Entries String Uuid} (hfamily : (category, family) ∈ ctx.ids) {origin : String}
    {id : Uuid} : (origin, id) ∈ family ↔
      .register category origin ∈ calls ∧ id = generatedId category origin := by
  have hget := (Entries.get?_eq_some_iff h.families).mpr hfamily
  rw [← h.stored, resolve, hget, Option.bind_some,
    Entries.get?_eq_some_iff (h.origins _ hfamily)]

/-- A family without entries is none of a registered object. -/
theorem Knows.exists_family (h : ctx.Knows calls) {category : Category} {origin : String}
    (hcall : .register category origin ∈ calls) :
    ∃ family, ctx.ids.get? category = some family := by
  have hid := (h.stored category origin _).mpr ⟨hcall, rfl⟩
  obtain ⟨family, hfamily, -⟩ := Option.bind_eq_some_iff.mp hid
  exact ⟨family, hfamily⟩

/-- The objects of a family are counted by their legacy ids. -/
theorem Knows.count_eq_card (h : ctx.Knows calls) (category : Category) :
    ∃ origins : Finset String, (∀ origin, origin ∈ origins ↔ .register category origin ∈ calls) ∧
      ctx.count category = origins.card := by
  rw [count]
  cases hfamily : ctx.ids.get? category with
  | none =>
    refine ⟨∅, fun origin => iff_of_false (Finset.notMem_empty _) fun hcall => ?_, rfl⟩
    obtain ⟨family, hsome⟩ := h.exists_family hcall
    rw [hfamily] at hsome
    cases hsome
  | some family =>
    have hmem := Entries.mem_of_get? hfamily
    refine ⟨(family.map Prod.fst).toFinset, fun origin => ?_, ?_⟩
    · rw [List.mem_toFinset, List.mem_map]
      constructor
      · rintro ⟨entry, hentry, rfl⟩
        exact ((h.mem_family_iff hmem).mp hentry).1
      · exact fun hcall => ⟨_, (h.mem_family_iff hmem).mpr ⟨hcall, rfl⟩, rfl⟩
    · rw [List.toFinset_card_of_nodup (h.origins _ hmem), List.length_map]
      rfl

/-- Nothing has been registered where every family is without entries. -/
theorem Knows.isEmpty_iff (h : ctx.Knows calls) :
    ctx.isEmpty = true ↔ ∀ category origin, .register category origin ∉ calls := by
  rw [isEmpty, List.all_eq_true]
  constructor
  · intro hempty category origin hcall
    obtain ⟨family, hfamily⟩ := h.exists_family hcall
    have hmem := Entries.mem_of_get? hfamily
    have hnil : family = [] := List.isEmpty_iff.mp (hempty _ hmem)
    have hentry := (h.mem_family_iff hmem).mpr ⟨hcall, rfl⟩
    rw [hnil] at hentry
    cases hentry
  · intro hnone entry hentry
    refine List.isEmpty_iff.mpr (List.eq_nil_iff_forall_not_mem.mpr fun own hown => ?_)
    exact hnone _ _ ((h.mem_family_iff hentry).mp hown).1

theorem Knows.get?_eq_some_iff [DecidableEq τ] (h : ctx.Knows calls) {type : τ} {name : String}
    {content : Content type} : ctx.get? type name = some content ↔
      Keyed.Last name ⟨type, content⟩ (kept calls) := by
  rw [get?, Option.bind_eq_some_iff, ← h.last]
  constructor
  · rintro ⟨value, hvalue, hcontent⟩
    rwa [AnyOf.as?_eq_some_iff.mp hcontent] at hvalue
  · exact fun hvalue => ⟨_, hvalue, AnyOf.as?_eq_some_iff.mpr rfl⟩

/-- A context stores the generated identifiers of the objects that calls have registered, each
    under its family and its legacy id, once. To register an object gives this identifier, the
    first time and again. A context answers with the set of these objects and with what calls have
    kept last; neither the order nor the repetition of registrations matters. An object is resolved
    to an identifier that no other object has, unless the digests of their messages, which are
    different, collide. -/
theorem after_exact [DecidableEq τ] (calls : List (Call Content)) :
    let ctx := after calls
    (ctx.ids.map Prod.fst).Nodup ∧
    (∀ category family, (category, family) ∈ ctx.ids → (family.map Prod.fst).Nodup ∧
      ∀ origin id, (origin, id) ∈ family ↔
        .register category origin ∈ calls ∧ id = generatedId category origin) ∧
    (∀ category origin, (ctx.register category origin).1 = generatedId category origin) ∧
    (∀ category origin id, ctx.resolve category origin = some id ↔
      .register category origin ∈ calls ∧ id = generatedId category origin) ∧
    (∀ category, ∃ origins : Finset String,
      (∀ origin, origin ∈ origins ↔ .register category origin ∈ calls) ∧
      ctx.count category = origins.card) ∧
    (ctx.isEmpty = true ↔ ∀ category origin, .register category origin ∉ calls) ∧
    (∀ name type content, ctx.get? type name = some content ↔
      Keyed.Last name ⟨type, content⟩ (kept calls)) ∧
    (∀ calls' : List (Call Content),
      (∀ category origin, .register category origin ∈ calls' ↔
        .register category origin ∈ calls) →
      (∀ category origin,
        (after calls').resolve category origin = ctx.resolve category origin) ∧
      (∀ category, (after calls').count category = ctx.count category) ∧
      (after calls').isEmpty = ctx.isEmpty ∧
      (kept calls' = kept calls →
        ∀ name type, (after calls').get? type name = ctx.get? type name)) ∧
    (Function.Injective fun o : Category × String => idName o.1 o.2) ∧
    ∀ o o' : Category × String, generatedId o.1 o.2 = generatedId o'.1 o'.2 ↔
      o = o' ∨ Uuid.Collision (idMessage o.1 o.2) (idMessage o'.1 o'.2) := by
  have h := knows_after calls
  refine ⟨h.families, fun _ _ hfamily => ⟨h.origins _ hfamily, fun _ _ => h.mem_family_iff hfamily⟩,
    h.register_fst, h.stored, h.count_eq_card, h.isEmpty_iff, fun _ _ _ => h.get?_eq_some_iff,
    fun calls' hsame => ?same, idName_injective, fun _ _ => generatedId_eq_iff⟩
  case same =>
    have h' := knows_after calls'
    refine ⟨fun category origin => ?resolve, fun category => ?count, ?isEmpty,
      fun hkept name type => ?get⟩
    case resolve =>
      refine Option.ext fun id => ?_
      rw [h.stored, h'.stored, hsame]
    case count =>
      obtain ⟨origins, horigins, hcount⟩ := h.count_eq_card category
      obtain ⟨origins', horigins', hcount'⟩ := h'.count_eq_card category
      have heq : origins' = origins := by
        refine Finset.ext fun origin => ?_
        rw [horigins, horigins', hsame]
      rw [hcount, hcount', heq]
    case isEmpty =>
      rw [Bool.eq_iff_iff, h.isEmpty_iff, h'.isEmpty_iff]
      simp only [hsame]
    case get =>
      refine Option.ext fun content => ?_
      rw [h.get?_eq_some_iff, h'.get?_eq_some_iff, hkept]

/-- Two lists, one of them registered twice, and a text that a number takes the place of: the calls
    in another order answer the same. -/
theorem after_exact_repeated :
    let calls : List (Call NoteType.Content) :=
      [.register .policyList "x", .attach "banner" (Note.text "welcome"), .register .policyList "y",
        .resolve .policyList "z", .register .policyList "x", .attach "banner" (Note.number 5)]
    let calls' : List (Call NoteType.Content) :=
      [.register .policyList "y", .attach "banner" (Note.text "welcome"),
        .attach "banner" (Note.number 5), .register .policyList "x"]
    ((after calls).register .policyList "x").1 = generatedId .policyList "x" ∧
      (after calls).resolve .policyList "x" = some (generatedId .policyList "x") ∧
      (after calls).resolve .policyList "z" = none ∧
      (after calls).number? "banner" = some 5 ∧ (after calls).text? "banner" = none ∧
      (after calls').count .policyList = (after calls).count .policyList ∧
      (after calls').isEmpty = (after calls).isEmpty ∧
      (after calls').number? "banner" = (after calls).number? "banner" := by
  intro calls calls'
  obtain ⟨-, -, hregister, hresolve, -, -, hget, hsame, -⟩ := after_exact calls
  have hregistered : ∀ category origin, .register category origin ∈ calls' ↔
      .register category origin ∈ calls := by
    intro category origin
    simp only [calls, calls', List.mem_cons, Call.register.injEq, reduceCtorEq, false_or,
      List.not_mem_nil, or_false]
    tauto
  have hlast : Keyed.Last "banner" (Note.number 5) (kept calls) :=
    ⟨[("banner", Note.text "welcome")], [], rfl, List.forall_mem_nil _⟩
  obtain ⟨-, hcount, hempty, hkept⟩ := hsame calls' hregistered
  refine ⟨hregister _ _, (hresolve _ _ _).mpr ⟨List.mem_cons_self, rfl⟩, ?missing,
    (hget _ _ _).mpr hlast, ?text, hcount _, hempty, hkept rfl "banner" .number⟩
  case missing =>
    refine Option.eq_none_iff_forall_ne_some.mpr fun id hid => ?_
    have hmem := ((hresolve _ _ _).mp hid).1
    simp [calls] at hmem
  case text => rfl

end Context

end ProfileMigration
