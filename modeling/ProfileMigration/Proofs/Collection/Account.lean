/-
  ProfileMigration.Proofs.Collection.Account

  What becomes of the rows of the legacy lists:

    Collection.Item             -- a row with what was asked for it and what it gives
    Collection.Section          -- a list with its rows
    Collection.Unlisted         -- a list that cannot be read, and why
    Collection.refusal?         -- the same, as it is found
    Collection.Passes           -- a list is read, or it ends the collection
    Collection.Inventory        -- the four lists, all of them read
    collect_accounts            -- every row of the four lists is accounted for

  A collection goes through its four lists in order. The entries of the rows that are done are
  all that a tree says, so each list adds its own to those of the lists before it.
-/
import ProfileMigration.Proofs.Collection.Questions
import ProfileMigration.Proofs.Collection.Rows

namespace ProfileMigration

namespace Collection

/-! ## Lists with their rows -/

/-- A row of a list, with the exchange that read its detail and the entry that it gives. -/
structure Item (ρ : Type) where
  row : ρ
  detail? : Option Exchange
  entry? : Option Entry

namespace Item

variable {ρ : Type}

/-- The detail of the row was asked for, and the row with the answer gives its entry. -/
def Read (path : ρ → String) (Gives : ρ → Except TransportError Json → Entry → Prop)
    (i : Item ρ) : Prop :=
  ∃ x e, i.detail? = some x ∧ x.call = .read (path i.row) ∧ i.entry? = some e ∧
    Gives i.row x.answer e

/-- The row alone gives its entry. -/
def Inline (Gives : ρ → Entry → Prop) (i : Item ρ) : Prop :=
  i.detail? = none ∧ ∃ e, i.entry? = some e ∧ Gives i.row e

/-- Nothing was asked for the row, and it gives nothing. -/
def Skipped (i : Item ρ) : Prop := i.detail? = none ∧ i.entry? = none

end Item

/-- What is done for the row of a feature template. -/
def FeatureItem : Item Summary → Prop :=
  Item.Read (fun row => "/template/feature/object/" ++ row.id) GivesFeature

/-- What is done for the row of a device template: nothing if it is one text of commands. -/
def DeviceItem (i : Item DeviceSummary) : Prop :=
  if i.row.form = some "file" then i.Skipped
  else i.Read (fun row => "/template/device/object/" ++ row.id) GivesDevice

/-- What is done for the row of a policy list. -/
def ListItem : Item Json → Prop := Item.Inline GivesList

/-- What is done for the row of a route policy. -/
def PolicyItem : Item Summary → Prop :=
  Item.Read (fun row => "/template/policy/definition/vedgeroute/" ++ row.id) GivesPolicy

/-- A list that was read, and its rows in order. -/
structure Section (ρ : Type) where
  opening : Exchange
  items : List (Item ρ)

namespace Section

variable {ρ : Type}

/-- What was asked for a list: the list itself and then the details of its rows. -/
def exchanges (s : Section ρ) : List Exchange := s.opening :: s.items.filterMap Item.detail?

/-- What a list gives. -/
def entries (s : Section ρ) : List Entry := s.items.filterMap Item.entry?

/-- The list at a path was read, its rows are those of the answer, and each was dealt with. -/
structure Lawful (path : String) (Row : Json → ρ → Prop) (Dealt : Item ρ → Prop)
    (s : Section ρ) : Prop where
  call : s.opening.call = .read path
  rows : ∃ answer, s.opening.answer = .ok answer ∧ HasRows Row answer (s.items.map Item.row)
  items : ∀ i ∈ s.items, Dealt i

end Section

/-! ## Lists that cannot be read -/

/-- The list at a path cannot be read: asking for it failed, or the answer does not have rows of
    the list. -/
def Unlisted {ρ : Type} (path : String) (Row : Json → ρ → Prop) (x : Exchange)
    (e : TransportError) : Prop :=
  x.call = .read path ∧
    match x.answer with
    | .error cause => e = cause
    | .ok answer =>
      (∀ found, ¬ HasRows Row answer found) ∧ ∃ fault, e = .malformed path fault answer

/-- One of the four lists cannot be read. -/
inductive Refused (x : Exchange) (e : TransportError) : Prop
  | features (h : Unlisted "/template/feature" IsTemplateRow x e)
  | devices (h : Unlisted "/template/device" IsDeviceRow x e)
  | lists (h : Unlisted "/template/policy/list" IsListRow x e)
  | policies
    (h : Unlisted "/template/policy/definition/vedgeroute" (IsPolicyRow "definitionId") x e)

/-- Why an answer does not give the rows of a list, if it does not. -/
def refused {ρ : Type} (row : Wire.Reader ρ) (path : String) (x : Exchange) :
    Option TransportError :=
  match x.answer.bind (decode (rows row) path) with
  | .ok _ => none
  | .error e => some e

/-- Why a list cannot be read, if the exchange asks for one of the four lists: the call failed,
    or the answer does not hold rows of the list. -/
def refusal? (x : Exchange) : Option TransportError :=
  if x.call = .read featureTemplates then refused featureTemplate featureTemplates x
  else if x.call = .read deviceTemplates then refused deviceTemplate deviceTemplates x
  else if x.call = .read policyLists then refused Wire.json policyLists x
  else if x.call = .read routePolicies then refused policyDefinition routePolicies x
  else none

/-- The paths of the four lists. -/
def listPaths : List String := [featureTemplates, deviceTemplates, policyLists, routePolicies]

/-- What begins like no list is no list. -/
theorem not_mem_listPaths {base : String}
    (hbase : listPaths.all (fun path => !base.toList.isPrefixOf path.toList) = true)
    (rest : String) : base ++ rest ∉ listPaths := by
  intro hmem
  have hno := List.all_eq_true.mp hbase _ hmem
  have hyes : base.toList <+: (base ++ rest).toList := by
    rw [String.toList_append]
    exact List.prefix_append _ _
  rw [List.isPrefixOf_iff_prefix.mpr hyes] at hno
  cases hno

/-- Reading anything else is not refused. -/
theorem refusal?_eq_none {x : Exchange} {path : String} (hcall : x.call = .read path)
    (hpath : path ∉ listPaths) : refusal? x = none := by
  have hne : ∀ list ∈ listPaths, x.call ≠ .read list := by
    intro list hlist heq
    have hsame : path = list := congrArg Call.path (hcall.symm.trans heq)
    exact hpath (hsame ▸ hlist)
  rw [refusal?, if_neg (hne _ (by simp [listPaths])), if_neg (hne _ (by simp [listPaths])),
    if_neg (hne _ (by simp [listPaths])), if_neg (hne _ (by simp [listPaths]))]

theorem featurePath_eq : featurePath = fun row => "/template/feature/object/" ++ row.id := by
  funext row
  rw [featurePath, show featureTemplates ++ "/object/" = "/template/feature/object/" by decide]

theorem devicePath_eq : devicePath = fun row => "/template/device/object/" ++ row.id := by
  funext row
  rw [devicePath, show deviceTemplates ++ "/object/" = "/template/device/object/" by decide]

theorem policyPath_eq :
    policyPath = fun row => "/template/policy/definition/vedgeroute/" ++ row.id := by
  funext row
  rw [policyPath,
    show routePolicies ++ "/" = "/template/policy/definition/vedgeroute/" by decide]

theorem featurePath_not_mem (row : Summary) : featurePath row ∉ listPaths :=
  not_mem_listPaths (by decide) row.id

theorem devicePath_not_mem (row : DeviceSummary) : devicePath row ∉ listPaths :=
  not_mem_listPaths (by decide) row.id

theorem policyPath_not_mem (row : Summary) : policyPath row ∉ listPaths :=
  not_mem_listPaths (by decide) row.id

/-- The rows of the list at a path are read in this way. -/
structure Lists {ρ : Type} (path : String) (reader : Wire.Reader ρ) (Row : Json → ρ → Prop) :
    Prop where
  reads : ∀ j row, Wire.read reader j = .ok row ↔ Row j row
  refusal : ∀ x : Exchange, x.call = .read path → refusal? x = refused reader path x

theorem read_ne_read {path other : String} (h : path ≠ other) : Call.read path ≠ .read other :=
  fun heq => h (congrArg Call.path heq)

theorem lists_featureTemplates : Lists featureTemplates featureTemplate IsTemplateRow where
  reads _ _ := read_featureTemplate_iff
  refusal x hcall := by rw [refusal?, if_pos hcall]

theorem lists_deviceTemplates : Lists deviceTemplates deviceTemplate IsDeviceRow where
  reads _ _ := read_deviceTemplate_iff
  refusal x hcall := by rw [refusal?, hcall, if_neg (read_ne_read (by decide)), if_pos rfl]

theorem lists_policyLists : Lists policyLists Wire.json IsListRow where
  reads _ _ := read_json_iff
  refusal x hcall := by
    rw [refusal?, hcall, if_neg (read_ne_read (by decide)), if_neg (read_ne_read (by decide)),
      if_pos rfl]

theorem lists_routePolicies :
    Lists routePolicies policyDefinition (IsPolicyRow "definitionId") where
  reads _ _ := read_policyRow_iff
  refusal x hcall := by
    rw [refusal?, hcall, if_neg (read_ne_read (by decide)), if_neg (read_ne_read (by decide)),
      if_neg (read_ne_read (by decide)), if_pos rfl]

section

variable {ρ : Type} {path : String} {reader : Wire.Reader ρ} {Row : Json → ρ → Prop}
  {Dealt : Item ρ → Prop} {x : Exchange} {e : TransportError}

/-- The rows that are read of an answer are those that it has. -/
theorem Lists.decode_iff (h : Lists path reader Row) {answer : Except TransportError Json}
    {found : List ρ} :
    answer.bind (decode (rows reader) path) = .ok found ↔
      ∃ j, answer = .ok j ∧ HasRows Row j found := by
  cases answer with
  | error e =>
    constructor
    · nofun
    · rintro ⟨_, ⟨⟩, -⟩
  | ok j =>
    have hiff : decode (rows reader) path j = .ok found ↔ HasRows Row j found :=
      decode_eq_ok_iff.trans (read_rows_iff h.reads)
    constructor
    · intro hfound
      exact ⟨j, rfl, hiff.mp hfound⟩
    · rintro ⟨_, ⟨⟩, hrows⟩
      exact hiff.mpr hrows

/-- A list that is refused cannot be read. -/
theorem Lists.unlisted (h : Lists path reader Row) (hcall : x.call = .read path)
    (hrefused : refused reader path x = some e) : Unlisted path Row x e := by
  refine ⟨hcall, ?_⟩
  rw [refused] at hrefused
  cases hanswer : x.answer with
  | error cause =>
    rw [hanswer] at hrefused
    exact (Option.some.inj hrefused).symm
  | ok answer =>
    rw [hanswer] at hrefused
    cases hfound : (Except.ok answer).bind (decode (rows reader) path) with
    | ok found =>
      rw [hfound] at hrefused
      cases hrefused
    | error e' =>
      rw [hfound] at hrefused
      obtain rfl := Option.some.inj hrefused
      refine ⟨fun found hrows => ?_, exists_of_decode_eq_error hfound⟩
      cases hfound.symm.trans (h.decode_iff.mpr ⟨answer, rfl, hrows⟩)

/-- A list that cannot be read is refused. -/
theorem Lists.refused_ne_none (h : Lists path reader Row) (hunlisted : Unlisted path Row x e) :
    refused reader path x ≠ none := by
  obtain ⟨-, hanswer⟩ := hunlisted
  rw [refused]
  cases hfound : x.answer.bind (decode (rows reader) path) with
  | error e => nofun
  | ok found =>
    obtain ⟨answer, hok, hrows⟩ := h.decode_iff.mp hfound
    rw [hok] at hanswer
    exact absurd hrows (hanswer.1 found)

/-- What is found to be refused is a list that cannot be read. -/
theorem refused_of_refusal? (h : refusal? x = some e) : Refused x e := by
  rw [refusal?] at h
  split at h
  case isTrue hcall => exact .features (lists_featureTemplates.unlisted hcall h)
  split at h
  case isTrue hcall => exact .devices (lists_deviceTemplates.unlisted hcall h)
  split at h
  case isTrue hcall => exact .lists (lists_policyLists.unlisted hcall h)
  split at h
  case isTrue hcall => exact .policies (lists_routePolicies.unlisted hcall h)
  cases h

theorem not_refused_of_refusal? (h : refusal? x = none) (e : TransportError) : ¬ Refused x e := by
  intro hrefused
  cases hrefused with
  | features hun =>
    exact lists_featureTemplates.refused_ne_none hun
      ((lists_featureTemplates.refusal x hun.1).symm.trans h)
  | devices hun =>
    exact lists_deviceTemplates.refused_ne_none hun
      ((lists_deviceTemplates.refusal x hun.1).symm.trans h)
  | lists hun =>
    exact lists_policyLists.refused_ne_none hun ((lists_policyLists.refusal x hun.1).symm.trans h)
  | policies hun =>
    exact lists_routePolicies.refused_ne_none hun
      ((lists_routePolicies.refusal x hun.1).symm.trans h)

/-- What is asked for the detail of a row asks for no list. -/
theorem Item.Read.refusal? {i : Item ρ} {detail : ρ → String}
    {Gives : ρ → Except TransportError Json → Entry → Prop} (h : i.Read detail Gives)
    (hdetail : ∀ row, detail row ∉ listPaths) :
    ∀ x, i.detail? = some x → Collection.refusal? x = none := by
  obtain ⟨x, -, hx, hcall, -⟩ := h
  intro y hy
  obtain rfl := Option.some.inj (hx.symm.trans hy)
  exact refusal?_eq_none hcall (hdetail i.row)

/-- Where a list was read, nothing was refused. -/
theorem Section.Lawful.not_refused {s : Section ρ} (h : s.Lawful path Row Dealt)
    (hlist : Lists path reader Row)
    (hdealt : ∀ i, Dealt i → ∀ x, i.detail? = some x → refusal? x = none) :
    ∀ x ∈ s.exchanges, refusal? x = none := by
  intro x hx
  rcases List.mem_cons.mp hx with rfl | hx
  · rw [hlist.refusal _ h.call, refused, hlist.decode_iff.mpr h.rows]
  · obtain ⟨i, hi, hdetail⟩ := List.mem_filterMap.mp hx
    exact hdealt i (h.items i hi) x hdetail

/-- An inquiry failed with its last question, the only one to be refused. -/
def Refuses (xs : List Exchange) (rest : Inquiry) : Prop :=
  ∃ earlier x e, xs = earlier ++ [x] ∧ (∀ y ∈ earlier, refusal? y = none) ∧
    refusal? x = some e ∧ rest = .failed e

theorem Refuses.after {xs ys : List Exchange} {rest : Inquiry} (h : Refuses ys rest)
    (hxs : ∀ x ∈ xs, refusal? x = none) : Refuses (xs ++ ys) rest := by
  obtain ⟨earlier, x, e, rfl, hnone, hsome, hrest⟩ := h
  exact ⟨xs ++ earlier, x, e, (List.append_assoc ..).symm, List.forall_mem_append.mpr ⟨hxs, hnone⟩,
    hsome, hrest⟩

/-! ## One list after the other -/

/-- A list is read in an inquiry that has these entries already, and its own come after them. Or
    it cannot be read, and the inquiry ends there. -/
def Passes (path : String) (Row : Json → ρ → Prop) (Dealt : Item ρ → Prop) (now : Instant)
    (entries : List Entry) (next : CollectedTree → Inquiry) (xs : List Exchange)
    (rest : Inquiry) : Prop :=
  Refuses xs rest ∨
    ∃ (s : Section ρ) (later : List Exchange), s.Lawful path Row Dealt ∧
      xs = s.exchanges ++ later ∧ (next (treeOf now (entries ++ s.entries))).Asks later rest

variable {now : Instant} {entries : List Entry} {next : CollectedTree → Inquiry}
  {xs : List Exchange} {rest : Inquiry}

/-- A list is asked for. Without its rows the inquiry ends there. -/
theorem asks_listing {tree : CollectedTree} {next : List ρ → Inquiry}
    (hlist : Lists path reader Row) (h : (listing path reader tree next).Asks xs rest)
    (hover : rest.isOver = true) :
    Refuses xs rest ∨
      ∃ x later found, xs = x :: later ∧ x.call = .read path ∧
        (∃ answer, x.answer = .ok answer ∧ HasRows Row answer found) ∧
        (next found).Asks later rest := by
  obtain ⟨x, later, rfl, hcall, hnext⟩ := h.of_ask hover
  cases hfound : x.answer.bind (decode (rows reader) path) with
  | error e =>
    rw [hfound] at hnext
    obtain ⟨rfl, rfl⟩ := hnext.eq_of_isOver rfl
    refine .inl ⟨[], x, e, rfl, List.forall_mem_nil _, ?_, rfl⟩
    rw [hlist.refusal x hcall, refused, hfound]
  | ok found =>
    rw [hfound] at hnext
    exact .inr ⟨x, later, found, rfl, hcall, hlist.decode_iff.mp hfound, hnext⟩

/-- The details of rows are asked for in order, each for one entry. -/
theorem asks_details {detail : ρ → String}
    {add : CollectedTree → ρ → Except TransportError Json → CollectedTree}
    {entry : ρ → Except TransportError Json → Entry}
    {Gives : ρ → Except TransportError Json → Entry → Prop}
    (hadd : ∀ t row answer, add t row answer = (entry row answer).addTo t)
    (hgives : ∀ row answer, Gives row answer (entry row answer)) {found : List ρ}
    (h : (details detail add next (treeOf now entries) found).Asks xs rest)
    (hover : rest.isOver = true) :
    ∃ (items : List (Item ρ)) (later : List Exchange), items.map Item.row = found ∧
      (∀ i ∈ items, i.Read detail Gives) ∧ xs = items.filterMap Item.detail? ++ later ∧
      (next (treeOf now (entries ++ items.filterMap Item.entry?))).Asks later rest := by
  -- What has been read so far grows with every row, and so do the entries that it is made of
  induction found generalizing entries xs with
  | nil =>
    refine ⟨[], xs, rfl, List.forall_mem_nil _, rfl, ?_⟩
    rw [details] at h
    simpa using h
  | cons row found ih =>
    rw [details] at h
    obtain ⟨x, later, rfl, hcall, hnext⟩ := h.of_ask hover
    rw [hadd, addTo_treeOf] at hnext
    obtain ⟨items, later, hrows, hread, rfl, hlater⟩ := ih hnext
    refine ⟨⟨row, some x, some (entry row x.answer)⟩ :: items, later, ?_, ?_, rfl, ?_⟩
    · rw [List.map_cons, hrows]
    · exact List.forall_mem_cons.mpr ⟨⟨x, _, rfl, hcall, rfl, hgives row x.answer⟩, hread⟩
    · rw [List.append_assoc] at hlater
      exact hlater

/-- Rows that are left out stand between the others, without anything asked for them. -/
theorem exists_items_of_filter {wanted : ρ → Bool} {items : List (Item ρ)} {found : List ρ}
    (hrows : items.map Item.row = found.filter wanted) (hdealt : ∀ i ∈ items, Dealt i) :
    ∃ all : List (Item ρ), all.map Item.row = found ∧
      all.filterMap Item.detail? = items.filterMap Item.detail? ∧
      all.filterMap Item.entry? = items.filterMap Item.entry? ∧
      ∀ i ∈ all, if wanted i.row then Dealt i else i.Skipped := by
  induction found generalizing items with
  | nil =>
    obtain rfl := List.map_eq_nil_iff.mp hrows
    exact ⟨[], rfl, rfl, rfl, List.forall_mem_nil _⟩
  | cons row found ih =>
    by_cases hwanted : wanted row = true
    · rw [List.filter_cons_of_pos hwanted] at hrows
      obtain ⟨i, items, rfl, rfl, hrest⟩ := List.map_eq_cons_iff.mp hrows
      obtain ⟨hi, hdealt⟩ := List.forall_mem_cons.mp hdealt
      obtain ⟨all, hall, hdetails, hentries, hkept⟩ := ih hrest hdealt
      refine ⟨i :: all, by rw [List.map_cons, hall], ?_, ?_, ?_⟩
      · rw [List.filterMap_cons, List.filterMap_cons, hdetails]
      · rw [List.filterMap_cons, List.filterMap_cons, hentries]
      · exact List.forall_mem_cons.mpr ⟨by rwa [if_pos hwanted], hkept⟩
    · rw [List.filter_cons_of_neg hwanted] at hrows
      obtain ⟨all, hall, hdetails, hentries, hkept⟩ := ih hrows hdealt
      refine ⟨⟨row, none, none⟩ :: all, by rw [List.map_cons, hall], hdetails, hentries, ?_⟩
      exact List.forall_mem_cons.mpr ⟨by rw [if_neg hwanted]; exact ⟨rfl, rfl⟩, hkept⟩

/-- A list whose rows all have details that are asked for. -/
theorem passes_details {detail : ρ → String}
    {add : CollectedTree → ρ → Except TransportError Json → CollectedTree}
    {entry : ρ → Except TransportError Json → Entry}
    {Gives : ρ → Except TransportError Json → Entry → Prop}
    (hadd : ∀ t row answer, add t row answer = (entry row answer).addTo t)
    (hgives : ∀ row answer, Gives row answer (entry row answer)) (hlist : Lists path reader Row)
    (h : (listing path reader (treeOf now entries)
      (details detail add next (treeOf now entries))).Asks xs rest)
    (hover : rest.isOver = true) :
    Passes path Row (Item.Read detail Gives) now entries next xs rest := by
  rcases asks_listing hlist h hover with
    hrefused | ⟨x, later, found, rfl, hcall, hfound, hnext⟩
  · exact .inl hrefused
  · obtain ⟨items, later, rfl, hread, rfl, hlater⟩ := asks_details hadd hgives hnext hover
    exact .inr ⟨⟨x, items⟩, later, ⟨hcall, hfound, hread⟩, rfl, hlater⟩

end

/-! ## The four lists -/

section

variable {now : Instant} {entries : List Entry} {xs : List Exchange} {rest : Inquiry}

theorem passes_features (h : (askFeatures (treeOf now entries)).Asks xs rest)
    (hover : rest.isOver = true) :
    Passes featureTemplates IsTemplateRow FeatureItem now entries askDevices xs rest := by
  rw [FeatureItem, ← featurePath_eq]
  exact passes_details addFeature_eq (gives_entryOf _ _) lists_featureTemplates h hover

theorem passes_devices (h : (askDevices (treeOf now entries)).Asks xs rest)
    (hover : rest.isOver = true) :
    Passes deviceTemplates IsDeviceRow DeviceItem now entries askLists xs rest := by
  rcases asks_listing lists_deviceTemplates h hover with
    hrefused | ⟨x, later, found, rfl, hcall, hfound, hnext⟩
  · exact .inl hrefused
  · obtain ⟨items, later, hrows, hread, rfl, hlater⟩ :=
      asks_details addDevice_eq gives_deviceEntry hnext hover
    obtain ⟨all, rfl, hdetails, hentries, hdealt⟩ := exists_items_of_filter hrows hread
    refine .inr ⟨⟨x, all⟩, later, ⟨hcall, hfound, fun i hi => ?_⟩, ?_, ?_⟩
    · have hi := hdealt i hi
      rw [DeviceItem, ← devicePath_eq]
      by_cases hfile : i.row.form = some "file"
      · simpa [DeviceSummary.isFile, hfile] using hi
      · simpa [DeviceSummary.isFile, hfile] using hi
    · rw [Section.exchanges, hdetails, List.cons_append]
    · rw [Section.entries, hentries]
      exact hlater

theorem foldl_addList_treeOf (now : Instant) (entries : List Entry) (found : List Json) :
    found.foldl addList (treeOf now entries) = treeOf now (entries ++ found.map listEntry) := by
  induction found generalizing entries with
  | nil => rw [List.foldl_nil, List.map_nil, List.append_nil]
  | cons row found ih =>
    rw [List.foldl_cons, addList_eq, addTo_treeOf, ih, List.append_assoc, List.map_cons,
      List.singleton_append]

theorem passes_lists (h : (askLists (treeOf now entries)).Asks xs rest)
    (hover : rest.isOver = true) :
    Passes policyLists IsListRow ListItem now entries askPolicies xs rest := by
  rcases asks_listing lists_policyLists h hover with
    hrefused | ⟨x, later, found, rfl, hcall, hfound, hnext⟩
  · exact .inl hrefused
  · let items : List (Item Json) := found.map fun row => ⟨row, none, some (listEntry row)⟩
    have hrows : items.map Item.row = found := by
      rw [List.map_map]
      exact List.map_id found
    have hdetails : items.filterMap Item.detail? = [] := by
      rw [List.filterMap_map]
      exact List.filterMap_eq_nil_iff.mpr fun _ _ => rfl
    have hentries : items.filterMap Item.entry? = found.map listEntry := by
      rw [List.filterMap_map]
      exact congrFun (List.filterMap_eq_map (f := listEntry)) found
    refine .inr ⟨⟨x, items⟩, later, ⟨hcall, by rwa [hrows], ?_⟩, ?_, ?_⟩
    · intro i hi
      obtain ⟨row, -, rfl⟩ := List.mem_map.mp hi
      exact ⟨rfl, _, rfl, gives_listEntry row⟩
    · rw [Section.exchanges, hdetails, List.cons_append, List.nil_append]
    · rw [Section.entries, hentries, ← foldl_addList_treeOf]
      exact hnext

theorem passes_policies (h : (askPolicies (treeOf now entries)).Asks xs rest)
    (hover : rest.isOver = true) :
    Passes routePolicies (IsPolicyRow "definitionId") PolicyItem now entries .done xs rest := by
  rw [PolicyItem, ← policyPath_eq]
  exact passes_details addPolicy_eq (gives_entryOf _ _) lists_routePolicies h hover

end

/-! ## A whole collection -/

theorem features_not_refused {s : Section Summary}
    (h : s.Lawful featureTemplates IsTemplateRow FeatureItem) :
    ∀ x ∈ s.exchanges, refusal? x = none := by
  rw [FeatureItem, ← featurePath_eq] at h
  exact h.not_refused lists_featureTemplates fun _ hi => hi.refusal? featurePath_not_mem

theorem devices_not_refused {s : Section DeviceSummary}
    (h : s.Lawful deviceTemplates IsDeviceRow DeviceItem) :
    ∀ x ∈ s.exchanges, refusal? x = none := by
  refine h.not_refused lists_deviceTemplates fun i hi => ?_
  rw [DeviceItem, ← devicePath_eq] at hi
  split at hi
  case isTrue =>
    rw [hi.1]
    nofun
  case isFalse => exact hi.refusal? devicePath_not_mem

theorem lists_not_refused {s : Section Json}
    (h : s.Lawful policyLists IsListRow ListItem) :
    ∀ x ∈ s.exchanges, refusal? x = none := by
  refine h.not_refused lists_policyLists fun i hi => ?_
  rw [hi.1]
  nofun

theorem policies_not_refused {s : Section Summary}
    (h : s.Lawful routePolicies (IsPolicyRow "definitionId") PolicyItem) :
    ∀ x ∈ s.exchanges, refusal? x = none := by
  rw [PolicyItem, ← policyPath_eq] at h
  exact h.not_refused lists_routePolicies fun _ hi => hi.refusal? policyPath_not_mem

/-- The four lists, all of them read. -/
structure Inventory where
  features : Section Summary
  devices : Section DeviceSummary
  lists : Section Json
  policies : Section Summary

namespace Inventory

/-- What was asked for the four lists, in the order of asking. -/
def exchanges (i : Inventory) : List Exchange :=
  i.features.exchanges ++ (i.devices.exchanges ++ (i.lists.exchanges ++ i.policies.exchanges))

/-- What the four lists give. -/
def entries (i : Inventory) : List Entry :=
  i.features.entries ++ i.devices.entries ++ i.lists.entries ++ i.policies.entries

/-- Each list was read at its path, and its rows were dealt with in the way of that list. -/
structure Lawful (i : Inventory) : Prop where
  features : i.features.Lawful "/template/feature" IsTemplateRow FeatureItem
  devices : i.devices.Lawful "/template/device" IsDeviceRow DeviceItem
  lists : i.lists.Lawful "/template/policy/list" IsListRow ListItem
  policies : i.policies.Lawful "/template/policy/definition/vedgeroute"
    (IsPolicyRow "definitionId") PolicyItem

/-- Nothing was refused where all lists were read. -/
theorem Lawful.not_refused {i : Inventory} (h : i.Lawful) :
    ∀ x ∈ i.exchanges, refusal? x = none :=
  List.forall_mem_append.mpr ⟨features_not_refused h.features,
    List.forall_mem_append.mpr ⟨devices_not_refused h.devices,
      List.forall_mem_append.mpr ⟨lists_not_refused h.lists, policies_not_refused h.policies⟩⟩⟩

end Inventory

theorem empty_eq_treeOf (now : Instant) : CollectedTree.empty now = treeOf now [] := rfl

/-- The questions of a collection end with one that is refused, or make an inventory. -/
theorem asks_collection {now : Instant} {xs : List Exchange} {rest : Inquiry}
    (h : (collection now).Asks xs rest) (hover : rest.isOver = true) :
    Refuses xs rest ∨
      ∃ i : Inventory, i.Lawful ∧ xs = i.exchanges ∧ rest = .done (treeOf now i.entries) := by
  rw [collection, empty_eq_treeOf] at h
  -- A list that is refused ends the inquiry, after lists in which nothing was
  rcases passes_features h hover with hrefused | ⟨features, _, hfeatures, rfl, h₁⟩
  · exact .inl hrefused
  rcases passes_devices h₁ hover with hrefused | ⟨devices, _, hdevices, rfl, h₂⟩
  · exact .inl (hrefused.after (features_not_refused hfeatures))
  rcases passes_lists h₂ hover with hrefused | ⟨lists, _, hlists, rfl, h₃⟩
  · exact .inl ((hrefused.after (devices_not_refused hdevices)).after
      (features_not_refused hfeatures))
  rcases passes_policies h₃ hover with hrefused | ⟨policies, _, hpolicies, rfl, h₄⟩
  · exact .inl (((hrefused.after (lists_not_refused hlists)).after
      (devices_not_refused hdevices)).after (features_not_refused hfeatures))
  · obtain ⟨rfl, rfl⟩ := h₄.eq_of_isOver rfl
    refine .inr ⟨⟨features, devices, lists, policies⟩, ⟨hfeatures, hdevices, hlists, hpolicies⟩,
      ?_, rfl⟩
    rw [List.append_nil]
    rfl

end Collection

open Collection

variable {σ : Type}

/-- A collection that nobody stops fails with the first list that cannot be read. If there is none,
    it has read the four lists with the details of their rows, once each and in order, and
    nothing else, and its tree has just what each row gives. -/
theorem collect_accounts (m : Manager σ) (now : Instant) (s : Session σ) :
    ∃ xs, m.unstopped.Leads s xs (collect m.unstopped now s).2 ∧
      match (collect m.unstopped now s).1 with
      | .error e => ∃ earlier x, xs = earlier ++ [x] ∧ (∀ y ∈ earlier, ∀ e, ¬ Refused y e) ∧
          Refused x e
      | .ok tree => (∀ x ∈ xs, ∀ e, ¬ Refused x e) ∧
          ∃ i : Inventory, i.Lawful ∧ xs = i.exchanges ∧ tree = treeOf now i.entries := by
  obtain ⟨xs, rest, htalk, hasks, hover, hresult⟩ := (collection now).run_unstopped m s
  rw [collect_eq_run]
  refine ⟨xs, htalk, ?_⟩
  rw [hresult]
  rcases asks_collection hasks hover with
    ⟨earlier, x, e, rfl, hnone, hsome, rfl⟩ | ⟨i, hi, rfl, rfl⟩
  · exact ⟨earlier, x, rfl, fun y hy e => not_refused_of_refusal? (hnone y hy) e,
      refused_of_refusal? hsome⟩
  · exact ⟨fun x hx e => not_refused_of_refusal? (hi.not_refused x hx) e, i, hi, rfl, rfl⟩

end ProfileMigration
