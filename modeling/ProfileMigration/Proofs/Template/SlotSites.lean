/-
  ProfileMigration.Proofs.Template.SlotSites

  Values of entries that are carried over into the slots of one field tree:

    LastCarried             -- slots hold what is made of the last entries for them
    KeepsLast.lastCarried   -- what is left of entries that are written in order
    SlotSite                -- such values: the entries, their slots, and where these are
    yields_routePolicy_slots, yields_vpn_slots -- parcels have what is made of them

  An entry that is not the last one for its slot leaves nothing behind.
-/
import ProfileMigration.Proofs.Template.Carrying
import ProfileMigration.Proofs.Template.Overwriting

namespace ProfileMigration

namespace Template

variable {how : Carriage} {slotOf : FieldMap → Option String} {source : String}
  {entries : List FieldMap} {held : String → Field → Prop}

/-! ## Values of last entries -/

/-- Something is made of the values of all entries with slots, and it is held in the slot of its
    entry, if no later entry is for the same slot. -/
def LastCarried (how : Carriage) (slotOf : FieldMap → Option String) (source : String)
    (entries : List FieldMap) (held : String → Field → Prop) : Prop :=
  ∀ before entry after slot v, entries = before ++ entry :: after → slotOf entry = some slot →
    configured? entry source = some v → ∃ w, how.carry source v = .ok w ∧
      ((∀ later ∈ after, slotOf later ≠ some slot) → held slot (.value w))

/-- Where entries are written in order, the last ones are held, and so is what is made of their
    values. -/
theorem KeepsLast.lastCarried {R : FieldMap → String → Field → Prop}
    (h : KeepsLast R entries held)
    (hown : ∀ entry slot slot' f, slotOf entry = some slot → R entry slot' f →
      slot' = slot ∧ ∃ w, f = .value w ∧ Carried how entry source (some w))
    (hlater : ∀ entry later slot f, slotOf entry = some slot → R later slot f →
      slotOf later = some slot) : LastCarried how slotOf source entries held := by
  rintro before entry after slot v rfl hslot hv
  obtain ⟨slot', f, hentry⟩ := h.every entry (List.mem_append_right _ List.mem_cons_self)
  obtain ⟨rfl, made, rfl, hcarried⟩ := hown entry slot slot' f hslot hentry
  obtain ⟨w, hw, heq⟩ := hcarried v hv
  obtain rfl := Option.some.inj heq
  refine ⟨made, hw, fun hafter => ?_⟩
  have hlast : LastFor R (before ++ entry :: after) slot' (.value made) :=
    ⟨before, entry, after, rfl, hentry, fun later hmem g hg =>
      hafter later hmem (hlater entry later slot' g hslot hg)⟩
  exact (h.last slot' (.value made)).mpr hlast

/-! ## Sites with slots -/

/-- Values of entries that a template carries over into slots. -/
structure SlotSite where
  /-- The lists that the field trees with the slots stand in. -/
  rows : List (String × String)
  /-- The lists that lead to the entries. -/
  entries : List String
  /-- The slot of an entry. -/
  slotOf : FieldMap → Option String
  source : String
  how : Carriage
  /-- What a field tree holds in its slots. -/
  held : FieldMap → String → Field → Prop

/-- A parcel has what is made of the values of last entries. -/
def SlotSite.Made (s : SlotSite) (values out : FieldMap) : Prop :=
  RowByRow (fun row made =>
    LastCarried s.how s.slotOf s.source (itemsAlong s.entries row) (s.held made))
    s.rows values out

/-! ## Route policies -/

/-- The field of an entry, if it is one of some names. -/
def fieldSlot? (names : List String) (entry : FieldMap) : Option String :=
  match fixedText? entry "field" with
  | .ok (some field) => if field ∈ names then some field else none
  | _ => none

theorem fieldSlot?_eq_some_iff {names : List String} {entry : FieldMap} {slot : String} :
    fieldSlot? names entry = some slot ↔
      fixedText? entry "field" = .ok (some slot) ∧ slot ∈ names := by
  rw [fieldSlot?]
  split
  · rename_i field hfield
    rw [hfield]
    grind
  · rename_i hother
    exact iff_of_false nofun fun h => hother slot h.1

/-- What the one item of a list holds. -/
def heldIn (list : String) (row : FieldMap) (slot : String) (f : Field) : Prop :=
  ∃ item ∈ row.items list, Keyed.get? slot item = some f

/-- The numbers that a sequence matches and sets, and the communities that it sets. -/
def sequenceSlotSites : List SlotSite :=
  [⟨[("sequences", "sequences")], ["match/entries"], fieldSlot? matchedNumbers, "value", .integer,
      heldIn "matchEntries"⟩,
    ⟨[("sequences", "sequences")], ["actions", "parameter"], fieldSlot? settableNumbers, "value",
      .integer, heldIn "actions"⟩,
    ⟨[("sequences", "sequences")], ["actions", "parameter"], fieldSlot? ["community"], "value",
      .text, heldIn "actions"⟩]

/-- No kind of list has a slot that is called like a number. -/
theorem not_mem_matchedNumbers : ∀ slot ∈ listSlots, slot ∉ matchedNumbers := by
  decide

theorem lastCarried_matches {ctx : Context} (h : KeepsLast (MatchSlot ctx) entries held) :
    LastCarried .integer (fieldSlot? matchedNumbers) "value" entries held := by
  refine h.lastCarried (fun entry slot slot' f hslot hentry => ?own)
    fun entry later slot f hslot hlater => ?later
  case own =>
    obtain ⟨hfield, hnumber⟩ := fieldSlot?_eq_some_iff.mp hslot
    cases hentry with
    | list hfield' hslot' _ _ =>
      rw [fixedText_unique hfield' hfield, listSlot?_of_mem_matchedNumbers _ hnumber] at hslot'
      cases hslot'
    | number hfield' _ hv =>
      exact ⟨fixedText_unique hfield' hfield, _, rfl, yields_intRequired_carried _ _ _ hv⟩
  case later =>
    obtain ⟨-, hnumber⟩ := fieldSlot?_eq_some_iff.mp hslot
    cases hlater with
    | list _ hslot' _ _ => exact absurd hnumber (not_mem_matchedNumbers _ (mem_listSlots hslot'))
    | number hfield _ _ => exact fieldSlot?_eq_some_iff.mpr ⟨hfield, hnumber⟩

theorem lastCarried_settable (h : KeepsLast ParameterSlot entries held) :
    LastCarried .integer (fieldSlot? settableNumbers) "value" entries held := by
  have hcommunity : "community" ∉ settableNumbers := by decide
  refine h.lastCarried (fun entry slot slot' f hslot hentry => ?own)
    fun entry later slot f hslot hlater => ?later
  case own =>
    obtain ⟨hfield, hnumber⟩ := fieldSlot?_eq_some_iff.mp hslot
    cases hentry with
    | number hfield' _ hv =>
      exact ⟨fixedText_unique hfield' hfield, _, rfl, yields_intRequired_carried _ _ _ hv⟩
    | community hfield' _ =>
      rw [fixedText_unique hfield hfield'] at hnumber
      exact absurd hnumber hcommunity
  case later =>
    obtain ⟨-, hnumber⟩ := fieldSlot?_eq_some_iff.mp hslot
    cases hlater with
    | number hfield _ _ => exact fieldSlot?_eq_some_iff.mpr ⟨hfield, hnumber⟩
    | community _ _ => exact absurd hnumber hcommunity

theorem lastCarried_communities (h : KeepsLast ParameterSlot entries held) :
    LastCarried .text (fieldSlot? ["community"]) "value" entries held := by
  have hcommunity : "community" ∉ settableNumbers := by decide
  refine h.lastCarried (fun entry slot slot' f hslot hentry => ?own)
    fun entry later slot f hslot hlater => ?later
  case own =>
    obtain ⟨hfield, hname⟩ := fieldSlot?_eq_some_iff.mp hslot
    obtain rfl := List.mem_singleton.mp hname
    cases hentry with
    | number hfield' hnumber _ =>
      rw [fixedText_unique hfield' hfield] at hnumber
      exact absurd hnumber hcommunity
    | community _ hv => exact ⟨rfl, _, rfl, yields_textRequired_carried _ _ _ hv⟩
  case later =>
    obtain ⟨-, hname⟩ := fieldSlot?_eq_some_iff.mp hslot
    obtain rfl := List.mem_singleton.mp hname
    cases hlater with
    | number _ hnumber _ => exact absurd hnumber hcommunity
    | community hfield _ => exact fieldSlot?_eq_some_iff.mpr ⟨hfield, hname⟩

theorem yields_routePolicy_slots {ctx : Context} (values : FieldMap) :
    Yields (fun out => ∀ s ∈ sequenceSlotSites, s.Made values out) (routePolicy ctx values) := by
  refine yields_routePolicy_kept.mono fun out hout => ?_
  simp only [sequenceSlotSites, List.forall_mem_cons, SlotSite.Made, RowByRow]
  refine ⟨hout.imp fun sequence row hrow => ?matched, hout.imp fun sequence row hrow => ?numbers,
    hout.imp fun sequence row hrow => ?communities,
    List.forall_mem_nil _⟩
  case matched =>
    rw [itemsAlong_singleton]
    exact lastCarried_matches hrow.1
  case numbers =>
    rw [itemsAlong, funext (itemsAlong_singleton "parameter")]
    exact lastCarried_settable hrow.2
  case communities =>
    rw [itemsAlong, funext (itemsAlong_singleton "parameter")]
    exact lastCarried_communities hrow.2

/-! ## Name servers -/

/-- The addresses of name servers, each in the slot of its role. -/
def vpnSlotSites : List SlotSite :=
  [⟨[], ["dns"], fun dns => some (serverSlot dns), "dns-addr", .text,
    fun out slot f => Keyed.get? slot (servers out) = some f⟩]

theorem lastCarried_servers (h : KeepsLast ServerSlot entries held) :
    LastCarried .text (fun dns => some (serverSlot dns)) "dns-addr" entries held := by
  refine h.lastCarried ?own ?later
  case own =>
    rintro dns slot _ _ hslot ⟨hv⟩
    refine ⟨Option.some.inj hslot, _, rfl, ?_⟩
    have htext : textRequired dns "dns-addr" = .ok (toText _) := congrArg (Except.map toText) hv
    exact yields_textRequired_carried _ _ _ htext
  case later =>
    rintro _ later _ _ - ⟨-⟩
    rfl

theorem yields_vpn_slots (values : FieldMap) :
    Yields (fun made => ∀ s ∈ vpnSlotSites, s.Made values made.2) (vpn values) := by
  refine yields_vpn_kept.mono fun made hmade => ?_
  simp only [vpnSlotSites, List.forall_mem_cons, SlotSite.Made, RowByRow]
  refine ⟨?_, List.forall_mem_nil _⟩
  rw [itemsAlong_singleton]
  exact lastCarried_servers hmade

end Template

end ProfileMigration
