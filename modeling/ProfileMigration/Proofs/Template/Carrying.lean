/-
  ProfileMigration.Proofs.Template.Carrying

  Values that templates carry over from a definition into a parcel:

    value?_assemble     -- assembled values are read back, if no path leads through another one
    Carriage            -- how a value is carried over
    Carried             -- what is made of a value, if there is one
    RowByRow            -- entries of nested lists and the items that are made of them
    Site                -- a value that is carried over: where it is read, how, and where it goes
    Site.Made           -- a parcel has what is made of it
    made_assemble / made_below -- sites of assembled field trees, and of the items in a list
-/
import ProfileMigration.Proofs.Field.Writing
import ProfileMigration.Proofs.Template.Assembling
import ProfileMigration.Template.Vpn

namespace ProfileMigration

namespace Template

/-! ## Assembled values -/

/-- No path leads through another one. -/
def AllApart (paths : List String) : Prop := (paths.map Path.segments).Pairwise Path.Apart

instance (paths : List String) : Decidable (AllApart paths) :=
  inferInstanceAs (Decidable (List.Pairwise _ _))

variable {entries : List (String × Option TypedValue)} {path : String}

theorem slashFree_put {data : FieldMap} (h : data.SlashFree) (path : String) (v : TypedValue) :
    (put data path v).SlashFree :=
  h.set path (Field.slashFree_value v)

theorem slashFree_assemble (entries : List (String × Option TypedValue)) :
    (assemble entries).SlashFree := by
  refine List.foldlRecOn (motive := FieldMap.SlashFree) entries _ FieldMap.slashFree_nil ?_
  rintro data hdata ⟨path, v?⟩ _
  cases v? with
  | none => exact hdata
  | some v => exact slashFree_put hdata path v

/-- What is written at paths apart from one is not read there. -/
theorem field?_assemble_append {first rest : List (String × Option TypedValue)}
    (h : ∀ e ∈ rest, Path.Apart (Path.segments e.1) (Path.segments path)) :
    (assemble (first ++ rest)).field? path = (assemble first).field? path := by
  have hboth : (assemble (first ++ rest)).SlashFree ∧
      (assemble (first ++ rest)).field? path = (assemble first).field? path := by
    rw [assemble, List.foldl_append]
    refine List.foldlRecOn (motive := fun data => FieldMap.SlashFree data ∧
      FieldMap.field? data path = (assemble first).field? path) rest _
      ⟨slashFree_assemble first, rfl⟩ ?_
    rintro data ⟨hfree, hdata⟩ ⟨other, v?⟩ hentry
    cases v? with
    | none => exact ⟨hfree, hdata⟩
    | some v =>
      exact ⟨slashFree_put hfree other v,
        (FieldMap.field?_set_of_apart hfree (.value v) (h _ hentry)).trans hdata⟩
  exact hboth.2

/-- Nothing is read at a path apart from all that are written at. -/
theorem field?_assemble_eq_none
    (h : ∀ e ∈ entries, Path.Apart (Path.segments e.1) (Path.segments path)) :
    (assemble entries).field? path = none := by
  rw [← List.nil_append entries, field?_assemble_append h]
  exact FieldMap.field?_nil path

/-- Every value that is assembled is read at its path. -/
theorem value?_assemble (hapart : AllApart (entries.map Prod.fst)) {v? : Option TypedValue}
    (h : (path, v?) ∈ entries) : (assemble entries).value? path = v? := by
  obtain ⟨first, rest, rfl⟩ := List.append_of_mem h
  rw [AllApart, List.map_map, List.map_append, List.map_cons, List.pairwise_append,
    List.pairwise_cons] at hapart
  obtain ⟨-, ⟨hrest, -⟩, hfirst⟩ := hapart
  have hafter : ∀ e ∈ rest, Path.Apart (Path.segments e.1) (Path.segments path) :=
    fun e he => (hrest _ (List.mem_map_of_mem he)).symm
  have hbefore : ∀ e ∈ first, Path.Apart (Path.segments e.1) (Path.segments path) :=
    fun e he => hfirst _ (List.mem_map_of_mem he) _ List.mem_cons_self
  rw [FieldMap.value?, List.append_cons, field?_assemble_append hafter, assemble,
    List.foldl_append, ← assemble]
  cases v? with
  | none =>
    have hnone : (assemble first).field? path = none := field?_assemble_eq_none hbefore
    exact congrArg (·.bind Field.value?) hnone
  | some v =>
    have hself := FieldMap.field?_set_self (slashFree_assemble first) path (.value v)
    exact congrArg (·.bind Field.value?) hself

/-! ## Carrying values over -/

/-- How a value is carried over. -/
inductive Carriage where
  /-- As it is. -/
  | plain
  | text
  | integer
  | truth
  /-- The address of a network, reported under a path of its own. -/
  | address (reported : String) (part : AddressPart)
  /-- The mask of a network. -/
  | mask (reported : String) (part : AddressPart)
deriving DecidableEq

/-- What a value at a path is carried over as. -/
def Carriage.carry (source : String) : Carriage → TypedValue → Converted TypedValue
  | .plain, v => .ok v
  | .text, v => .ok (toText v)
  | .integer, v => toInt source v
  | .truth, v => toBool source v
  | .address reported part, v => (addressAndMask reported part v).map Prod.fst
  | .mask reported part, v => (addressAndMask reported part v).map Prod.snd

variable {row : FieldMap} {source : String}

/-- What is made of the value at a path, if one is configured. -/
def Carried (how : Carriage) (row : FieldMap) (source : String) (made : Option TypedValue) :
    Prop :=
  ∀ v, configured? row source = some v → ∃ w, how.carry source v = .ok w ∧ made = some w

theorem orDefault_of_configured {v : TypedValue} (h : configured? row source = some v)
    (default : Literal) : orDefault row source default = v := by
  rw [orDefault, h, Option.getD_some]

theorem carried_configured? (row : FieldMap) (source : String) :
    Carried .plain row source (configured? row source) :=
  fun v hv => ⟨v, rfl, hv⟩

theorem carried_textOpt (row : FieldMap) (source : String) :
    Carried .text row source (textOpt row source) := by
  intro v hv
  refine ⟨toText v, rfl, ?_⟩
  rw [textOpt, hv, Option.map_some]

theorem carried_textOr (row : FieldMap) (source default : String) :
    Carried .plain row source (some (textOr row source default)) :=
  fun v hv => ⟨v, rfl, congrArg some (orDefault_of_configured hv _)⟩

theorem yields_required_carried (row : FieldMap) (source : String) :
    Yields (fun w => Carried .plain row source (some w)) (required row source) := by
  intro w hw v hv
  rw [required, hv] at hw
  exact ⟨v, rfl, congrArg some (Except.ok.inj hw).symm⟩

theorem yields_intRequired_carried (row : FieldMap) (source : String) :
    Yields (fun w => Carried .integer row source (some w)) (intRequired row source) := by
  intro w hw v hv
  rw [intRequired, required, hv] at hw
  exact ⟨w, hw, rfl⟩

theorem yields_textRequired_carried (row : FieldMap) (source : String) :
    Yields (fun w => Carried .text row source (some w)) (textRequired row source) := by
  intro w hw v hv
  rw [textRequired, required, hv] at hw
  exact ⟨w, hw, rfl⟩

theorem yields_intOpt_carried (row : FieldMap) (source : String) :
    Yields (Carried .integer row source) (intOpt row source) := by
  intro made hmade v hv
  rw [intOpt, hv] at hmade
  obtain ⟨w, hw, rfl⟩ := map_eq_ok hmade
  exact ⟨w, hw, rfl⟩

theorem yields_intOr_carried (row : FieldMap) (source : String) (default : Int64) :
    Yields (fun w => Carried .integer row source (some w)) (intOr row source default) := by
  intro w hw v hv
  rw [intOr, orDefault_of_configured hv] at hw
  exact ⟨w, hw, rfl⟩

theorem yields_boolOr_carried (row : FieldMap) (source : String) (default : Bool) :
    Yields (fun w => Carried .truth row source (some w)) (boolOr row source default) := by
  intro w hw v hv
  rw [boolOr, orDefault_of_configured hv] at hw
  exact ⟨w, hw, rfl⟩

/-! ## Sites -/

/-- Something that holds of the items of a list and what is made of them, of the items in these,
    and so on for the lists of a path. The path names each list in the definition and in the
    parcel. -/
def RowByRow (P : FieldMap → FieldMap → Prop) :
    List (String × String) → FieldMap → FieldMap → Prop
  | [], values, out => P values out
  | (source, target) :: rest, values, out =>
    List.Forall₂ (RowByRow P rest) (values.items source) (out.items target)

/-- The items of a list, of the lists in these, and so on along several paths. -/
def itemsAlong : List String → FieldMap → List FieldMap
  | [], values => [values]
  | list :: rest, values => (values.items list).flatMap (itemsAlong rest)

theorem itemsAlong_singleton (list : String) (values : FieldMap) :
    itemsAlong [list] values = values.items list :=
  List.flatMap_singleton' _

/-- A value that a template carries over. -/
structure Site where
  /-- The lists that it stands in. -/
  rows : List (String × String)
  source : String
  how : Carriage
  target : String
  /-- Whether it is read. -/
  due : FieldMap → Bool

/-- A value in no list, that is read on a condition. -/
def siteIf (due : FieldMap → Bool) (source : String) (how : Carriage) (target : String) : Site :=
  ⟨[], source, how, target, due⟩

/-- A value in no list, that is always read. -/
def site (source : String) (how : Carriage) (target : String) : Site :=
  siteIf (fun _ => true) source how target

/-- The same in the items of a list. -/
def Site.below (lists : String × String) (s : Site) : Site := { s with rows := lists :: s.rows }

/-- A parcel has what is made of a value. -/
def Site.Made (s : Site) (values out : FieldMap) : Prop :=
  RowByRow (fun row made => s.due row = true → Carried s.how row s.source (made.value? s.target))
    s.rows values out

variable {sites : List Site} {values out : FieldMap}

theorem made_siteIf {due : FieldMap → Bool} {how : Carriage} {target : String}
    (h : due values = true → Carried how values source (out.value? target)) :
    (siteIf due source how target).Made values out :=
  h

/-- If it is read, one of the values that are assembled is what is made of a site in no list. -/
def Entered (entries : List (String × Option TypedValue)) (values : FieldMap) (s : Site) : Prop :=
  s.rows = [] ∧ (s.due values = true →
    ∃ made, (s.target, made) ∈ entries ∧ Carried s.how values s.source made)

theorem entered_siteIf {due : FieldMap → Bool} {how : Carriage} {target : String}
    (h : due values = true →
      ∃ made, (target, made) ∈ entries ∧ Carried how values source made) :
    Entered entries values (siteIf due source how target) :=
  ⟨rfl, h⟩

theorem entered_site {how : Carriage} {target : String} {made : Option TypedValue}
    (hmade : Carried how values source made) (hmem : (target, made) ∈ entries) :
    Entered entries values (site source how target) :=
  ⟨rfl, fun _ => ⟨made, hmem, hmade⟩⟩

/-- Sites of an assembled field tree. -/
theorem made_assemble (hapart : AllApart (entries.map Prod.fst))
    (h : ∀ s ∈ sites, Entered entries values s) :
    ∀ s ∈ sites, s.Made values (assemble entries) := by
  intro s hs
  obtain ⟨hrows, hentered⟩ := h s hs
  rw [Site.Made, hrows, RowByRow]
  intro hdue
  obtain ⟨made, hmem, hcarried⟩ := hentered hdue
  rw [value?_assemble hapart hmem]
  exact hcarried

/-- Sites in the items of a list. -/
theorem made_below {lists : String × String}
    (h : List.Forall₂ (fun row made => ∀ s ∈ sites, s.Made row made) (values.items lists.1)
      (out.items lists.2)) : ∀ s ∈ sites.map (Site.below lists), s.Made values out := by
  intro s hs
  obtain ⟨inner, hinner, rfl⟩ := List.mem_map.mp hs
  exact h.imp fun row made hmade => hmade inner hinner

/-- Where what is made of a site enters the parcel. -/
def Site.entrance (s : Site) : String :=
  match s.rows with
  | [] => s.target
  | (_, target) :: _ => target

/-- What is made of a site only depends on the field where it enters the parcel. -/
theorem Site.Made.congr {s : Site} {out' : FieldMap} (h : s.Made values out)
    (hsame : out'.field? s.entrance = out.field? s.entrance) : s.Made values out' := by
  rw [Site.Made] at h ⊢
  rw [Site.entrance] at hsame
  cases hrows : s.rows with
  | nil =>
    rw [hrows] at h hsame
    rw [RowByRow] at h ⊢
    rwa [FieldMap.value?, hsame]
  | cons lists rest =>
    rw [hrows] at h hsame
    have hitems : out'.items lists.2 = out.items lists.2 := by
      rw [FieldMap.items_eq, FieldMap.items_eq]
      exact congrArg (fun f? : Option Field => (f?.map Field.rows).getD []) hsame
    rw [RowByRow] at h ⊢
    rwa [hitems]

/-- Fields under another name do not matter to sites. -/
theorem made_insert {name : String} (hname : Path.Single name)
    (hentrances : ∀ s ∈ sites, (Path.segments s.entrance).head? ≠ some name) (f : Field)
    (h : ∀ s ∈ sites, s.Made values out) :
    ∀ s ∈ sites, s.Made values (Keyed.insert name f out) :=
  fun s hs => (h s hs).congr (FieldMap.field?_insert_of_head_ne hname (hentrances s hs) f out)

theorem made_withItems {name : String} (hname : Path.Single name)
    (hentrances : ∀ s ∈ sites, (Path.segments s.entrance).head? ≠ some name)
    (rows : List FieldMap) (h : ∀ s ∈ sites, s.Made values out) :
    ∀ s ∈ sites, s.Made values (withItems out name rows) := by
  cases rows with
  | nil => exact h
  | cons row rest => exact made_insert hname hentrances _ h

/-- What is written apart from them does not matter either. -/
theorem made_set (hfree : out.SlashFree) {path : String} {f : Field}
    (hentrances : ∀ s ∈ sites, Path.Apart (Path.segments path) (Path.segments s.entrance))
    (h : ∀ s ∈ sites, s.Made values out) : ∀ s ∈ sites, s.Made values (out.set path f) :=
  fun s hs => (h s hs).congr (FieldMap.field?_set_of_apart hfree f (hentrances s hs))

/-- Sites of a field tree, and of the items of a list in it. -/
theorem made_listed {top sub : List Site} {lists : String × String} {rows : List FieldMap}
    (htop : ∀ s ∈ top, s.Made values out) (hitems : out.items lists.2 = rows)
    (hsub : List.Forall₂ (fun row made => ∀ s ∈ sub, s.Made row made) (values.items lists.1) rows) :
    ∀ s ∈ top ++ sub.map (.below lists), s.Made values out := by
  rw [← hitems] at hsub
  exact List.forall_mem_append.mpr ⟨htop, made_below hsub⟩

/-- Sites of an assembled field tree to which a list is added, and of the items of the list. -/
theorem made_withItems_assemble {top sub : List Site} {lists : String × String}
    {rows : List FieldMap} (hapart : AllApart (entries.map Prod.fst))
    (hname : Path.Single lists.2)
    (hheads : ∀ path ∈ entries.map Prod.fst, (Path.segments path).head? ≠ some lists.2)
    (hentrances : ∀ s ∈ top, (Path.segments s.entrance).head? ≠ some lists.2)
    (htop : ∀ s ∈ top, Entered entries values s)
    (hsub : List.Forall₂ (fun row made => ∀ s ∈ sub, s.Made row made) (values.items lists.1) rows) :
    ∀ s ∈ top ++ sub.map (.below lists),
      s.Made values (withItems (assemble entries) lists.2 rows) :=
  made_listed (made_withItems hname hentrances rows (made_assemble hapart htop))
    (items_withItems hname (get?_assemble_of_head_ne hheads) rows) hsub

/-- The same for a list that is written at a path, unless it is empty. -/
theorem made_setItems {top sub : List Site} {lists : String × String} {rows : List FieldMap}
    (hfree : out.SlashFree) (hnone : out.field? lists.2 = none)
    (hapart : ∀ s ∈ top, Path.Apart (Path.segments lists.2) (Path.segments s.entrance))
    (htop : ∀ s ∈ top, s.Made values out)
    (hsub : List.Forall₂ (fun row made => ∀ s ∈ sub, s.Made row made) (values.items lists.1) rows) :
    ∀ s ∈ top ++ sub.map (.below lists),
      s.Made values (if rows.isEmpty then out else out.set lists.2 (.items rows)) := by
  cases rows with
  | nil =>
    have hempty : ([] : List FieldMap).isEmpty = true := rfl
    rw [if_pos hempty]
    refine made_listed htop ?_ hsub
    rw [FieldMap.items, hnone]
  | cons row rest =>
    have hself := FieldMap.field?_set_self hfree lists.2 (.items (row :: rest))
    have hfull : ¬ (row :: rest).isEmpty = true := Bool.false_ne_true
    rw [if_neg hfull]
    refine made_listed (made_set hfree hapart htop) ?_ hsub
    rw [FieldMap.items, hself]

/-- The parts of a network that a value is split into. -/
theorem carried_split {reported : String} {part : AddressPart} {v address mask : TypedValue}
    (hv : configured? row source = some v)
    (hsplit : addressAndMask reported part v = .ok (address, mask)) :
    Carried (.address reported part) row source (some address) ∧
      Carried (.mask reported part) row source (some mask) := by
  have hboth : ∀ v', configured? row source = some v' →
      addressAndMask reported part v' = .ok (address, mask) := by
    intro v' hv'
    rwa [← Option.some.inj (hv.symm.trans hv')]
  refine ⟨fun v' hv' => ⟨address, ?_, rfl⟩, fun v' hv' => ⟨mask, ?_, rfl⟩⟩
  · rw [Carriage.carry, hboth v' hv']
    rfl
  · rw [Carriage.carry, hboth v' hv']
    rfl

end Template

end ProfileMigration
