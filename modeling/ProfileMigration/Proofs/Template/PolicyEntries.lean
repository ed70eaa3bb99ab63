/-
  ProfileMigration.Proofs.Template.PolicyEntries

  Policy lists, entry by entry:

    Community.isStandard_iff / isExtended_iff -- the written forms of communities
    Decides                     -- a reading that succeeds on what is valid, and only on that
    Decides.mapM                -- so does that of a list, and else it fails as the first one
    Template.ValidEntry         -- an entry that a list of a type may have
    Template.MadeOf             -- the item that is made of it
    Template.EntryRefused       -- why any other one is refused
    convert_list_ok_iff / lists_of_convert / refused_of_convert -- what becomes of a list
    convert_policyList          -- a list converts exactly if it has entries and all are valid
-/
import Mathlib.Data.List.TakeDrop
import ProfileMigration.Proofs.Field.Leaves
import ProfileMigration.Proofs.Legacy.Addresses
import ProfileMigration.Proofs.Sequence.Split
import ProfileMigration.Proofs.Template.Contents
import ProfileMigration.Proofs.Template.Unsetting

namespace ProfileMigration

/-! ## Communities -/

namespace Community

variable {cs : List Char} {s : String}

theorem isNumber_iff : isNumber cs = true ↔ cs ≠ [] ∧ ∀ c ∈ cs, c.isDigit = true := by
  rw [isNumber, Bool.and_eq_true, List.all_eq_true, decide_eq_true_iff]

theorem colon_not_mem_of_isNumber (h : isNumber cs = true) : ':' ∉ cs := fun hmem =>
  absurd ((isNumber_iff.mp h).2 ':' hmem) (by decide)

/-- Two numbers with a colon between them. -/
theorem isPair_iff : isPair cs = true ↔ ∃ high low, isNumber high = true ∧ isNumber low = true ∧
    cs = high ++ ':' :: low := by
  constructor
  · intro h
    rw [isPair] at h
    split at h
    · rename_i high low hsplit
      rw [Bool.and_eq_true] at h
      refine ⟨high, low, h.1, h.2, ?_⟩
      have hcs := Text.intercalate_splitBy ':' cs
      rw [hsplit, List.intercalate_cons_cons, List.intercalate_singleton] at hcs
      rw [← hcs, List.append_assoc, List.singleton_append]
    · cases h
  · rintro ⟨high, low, hhigh, hlow, rfl⟩
    have huncut : ∀ {part : List Char}, isNumber part = true →
        ∀ c ∈ part, decide (c = ':') = false := fun hpart c hc =>
      decide_eq_false fun hcolon => colon_not_mem_of_isNumber hpart (hcolon ▸ hc)
    rw [isPair, Text.splitBy_append_cons (huncut hhigh) (decide_eq_true rfl),
      Text.splitBy_eq_singleton (huncut hlow)]
    dsimp only
    rw [hhigh, hlow]
    rfl

/-- The last colon is the one with none behind it. -/
theorem splitAtLastColon?_eq_some_iff {target number : List Char} :
    splitAtLastColon? cs = some (target, number) ↔
      cs = target ++ ':' :: number ∧ ':' ∉ number := by
  rw [splitAtLastColon?, List.span_eq_takeWhile_dropWhile]
  constructor
  · intro h
    have hcs := List.takeWhile_append_dropWhile (p := (decide <| · ≠ ':')) (l := cs.reverse)
    cases hdrop : cs.reverse.dropWhile (decide <| · ≠ ':') with
    | nil =>
      rw [hdrop] at h
      cases h
    | cons c before =>
      rw [hdrop] at h hcs
      obtain ⟨rfl, rfl⟩ := Option.some.inj h
      have hcolon := List.head_dropWhile_not (decide <| · ≠ ':')
        (hdrop ▸ List.cons_ne_nil c before)
      simp only [hdrop, List.head_cons, decide_eq_false_iff_not, not_not] at hcolon
      subst hcolon
      constructor
      · have hsame := congrArg List.reverse hcs
        rw [List.reverse_append, List.reverse_cons, List.append_assoc, List.singleton_append,
          List.reverse_reverse] at hsame
        exact hsame.symm
      · intro hmem
        have hne := List.mem_takeWhile_imp (List.mem_reverse.mp hmem)
        exact absurd rfl (of_decide_eq_true hne)
  · rintro ⟨rfl, hnumber⟩
    have hall : ∀ c ∈ number.reverse, decide (c ≠ ':') = true := fun c hc =>
      decide_eq_true fun hcolon => hnumber (hcolon ▸ List.mem_reverse.mp hc)
    have hreverse : (target ++ ':' :: number).reverse =
        number.reverse ++ ':' :: target.reverse := by
      simp
    rw [hreverse, List.takeWhile_append_of_pos hall, List.dropWhile_append_of_pos hall,
      List.takeWhile_cons_of_neg (by simp), List.dropWhile_cons_of_neg (by simp)]
    simp

/-- A text without blanks, a colon and a number. -/
theorem isTarget_iff : isTarget cs = true ↔ ∃ target number, target ≠ [] ∧
    (∀ c ∈ target, isAsciiBlank c = false) ∧ isNumber number = true ∧
      cs = target ++ ':' :: number := by
  rw [isTarget]
  constructor
  · intro h
    split at h
    · rename_i target number hsplit
      rw [Bool.and_eq_true, Bool.and_eq_true, decide_eq_true_iff, List.all_eq_true] at h
      obtain ⟨⟨hne, hblank⟩, hnumber⟩ := h
      exact ⟨target, number, hne, fun c hc => by simpa using hblank c hc, hnumber,
        (splitAtLastColon?_eq_some_iff.mp hsplit).1⟩
    · cases h
  · rintro ⟨target, number, hne, hblank, hnumber, hcs⟩
    rw [splitAtLastColon?_eq_some_iff.mpr ⟨hcs, colon_not_mem_of_isNumber hnumber⟩]
    dsimp only
    rw [Bool.and_eq_true, Bool.and_eq_true, decide_eq_true_iff, List.all_eq_true]
    exact ⟨⟨hne, fun c hc => by rw [hblank c hc]; rfl⟩, hnumber⟩

/-- A well-known name, or two numbers with a colon between them. -/
theorem isStandard_iff : isStandard s = true ↔ s ∈ wellKnown ∨
    ∃ high low, isNumber high = true ∧ isNumber low = true ∧ s.toList = high ++ ':' :: low := by
  rw [isStandard, Bool.or_eq_true, List.contains_iff_mem, isPair_iff]

/-- One of two kinds, a blank, and a text without blanks, a colon and a number. -/
theorem isExtended_iff : isExtended s = true ↔ ∃ kind ∈ ["rt", "soo"], ∃ target number,
    target ≠ [] ∧ (∀ c ∈ target, isAsciiBlank c = false) ∧ isNumber number = true ∧
      s.toList = kind.toList ++ ' ' :: (target ++ ':' :: number) := by
  rw [isExtended]
  constructor
  · intro h
    split at h
    · rename_i cs hs
      obtain ⟨target, number, hne, hblank, hnumber, rfl⟩ := isTarget_iff.mp h
      exact ⟨"rt", by simp, target, number, hne, hblank, hnumber, hs⟩
    · rename_i cs hs
      obtain ⟨target, number, hne, hblank, hnumber, rfl⟩ := isTarget_iff.mp h
      exact ⟨"soo", by simp, target, number, hne, hblank, hnumber, hs⟩
    · cases h
  · rintro ⟨kind, hkind, target, number, hne, hblank, hnumber, hs⟩
    have htarget := isTarget_iff.mpr ⟨target, number, hne, hblank, hnumber, rfl⟩
    rw [hs]
    simp only [List.mem_cons, List.not_mem_nil, or_false] at hkind
    rcases hkind with rfl | rfl
    · exact htarget
    · exact htarget

end Community

/-! ## Readings that decide -/

/-- A reading that succeeds on what is valid, and only on that: then the outcome is made of it, and
    else the failure is what it is refused for. -/
structure Decides {α β ε : Type} (read : α → Except ε β) (Valid : α → Prop)
    (Made : α → β → Prop) (Refused : α → ε → Prop) : Prop where
  made : ∀ {x y}, read x = .ok y → Valid x ∧ Made x y
  refused : ∀ {x e}, read x = .error e → ¬ Valid x ∧ Refused x e

/-- The first element that is not valid is refused for this. -/
def FirstRefused {α ε : Type} (Valid : α → Prop) (Refused : α → ε → Prop) (xs : List α) (e : ε) :
    Prop :=
  ∃ before x after, xs = before ++ x :: after ∧ (∀ y ∈ before, Valid y) ∧ ¬ Valid x ∧ Refused x e

/-- Behind valid elements, the first one that is refused is the first one that is not valid. -/
theorem FirstRefused.refused {α ε : Type} {Valid : α → Prop} {Refused : α → ε → Prop}
    {before after : List α} {x : α} {e : ε}
    (h : FirstRefused Valid Refused (before ++ x :: after) e) (hbefore : ∀ y ∈ before, Valid y)
    (hx : ¬ Valid x) : Refused x e := by
  obtain ⟨front, y, back, hsplit, hfront, hy, hrefused⟩ := h
  rcases split_of_append hsplit with ⟨rest, rfl, -⟩ | ⟨between, rfl, hrest⟩
  · exact absurd (hbefore y (List.mem_append_right _ List.mem_cons_self)) hy
  · cases between with
    | nil =>
      obtain ⟨rfl, -⟩ := List.cons.inj hrest
      exact hrefused
    | cons z between =>
      obtain ⟨rfl, -⟩ := List.cons.inj hrest
      exact absurd (hfront x (List.mem_append_right _ List.mem_cons_self)) hx

namespace Decides

variable {α β γ ε : Type} {read : α → Except ε β} {Valid : α → Prop} {Made : α → β → Prop}
  {Refused : α → ε → Prop}

theorem of_cases (h : ∀ x, (Valid x ∧ ∃ y, read x = .ok y ∧ Made x y) ∨
    (¬ Valid x ∧ ∃ e, read x = .error e ∧ Refused x e)) : Decides read Valid Made Refused where
  made := by
    intro x y hy
    rcases h x with ⟨hvalid, y', hy', hmade⟩ | ⟨-, e, he, -⟩
    · obtain rfl := Except.ok.inj (hy.symm.trans hy')
      exact ⟨hvalid, hmade⟩
    · cases hy.symm.trans he
  refused := by
    intro x e he
    rcases h x with ⟨-, y, hy, -⟩ | ⟨hinvalid, e', he', hrefused⟩
    · cases he.symm.trans hy
    · obtain rfl := Except.error.inj (he.symm.trans he')
      exact ⟨hinvalid, hrefused⟩

theorem valid_iff (h : Decides read Valid Made Refused) {x : α} :
    (∃ y, read x = .ok y) ↔ Valid x := by
  constructor
  · rintro ⟨y, hy⟩
    exact (h.made hy).1
  · intro hvalid
    cases hread : read x with
    | ok y => exact ⟨y, rfl⟩
    | error e => exact absurd hvalid (h.refused hread).1

theorem map (h : Decides read Valid Made Refused) {f : α → β → γ} {Made' : α → γ → Prop}
    (hf : ∀ x y, Made x y → Made' x (f x y)) :
    Decides (fun x => (read x).map (f x)) Valid Made' Refused where
  made := by
    intro x z hz
    obtain ⟨y, hy, rfl⟩ := map_eq_ok hz
    obtain ⟨hvalid, hmade⟩ := h.made hy
    exact ⟨hvalid, hf x y hmade⟩
  refused := by
    intro x e he
    cases hread : read x with
    | ok y =>
      rw [hread] at he
      cases he
    | error e' =>
      rw [hread] at he
      exact h.refused (hread.trans (congrArg _ (Except.error.inj he)))

/-- A list is read if all its elements are valid, one by one, and it fails as the first one that is
    not. -/
theorem mapM (h : Decides read Valid Made Refused) :
    Decides (fun xs => xs.mapM read) (fun xs => ∀ x ∈ xs, Valid x) (List.Forall₂ Made)
      (FirstRefused Valid Refused) where
  made := by
    intro xs ys hys
    refine ⟨fun x hx => ?_, (mapM_eq_ok_iff.mp hys).imp fun x y hy => (h.made hy).2⟩
    exact h.valid_iff.mp (exists_mapM_eq_ok_iff.mp ⟨ys, hys⟩ x hx)
  refused := by
    intro xs e he
    obtain ⟨before, x, after, rfl, hbefore, hx⟩ := mapM_eq_error_iff.mp he
    obtain ⟨hinvalid, hrefused⟩ := h.refused hx
    refine ⟨fun hall => hinvalid (hall x (List.mem_append_right _ List.mem_cons_self)),
      before, x, after, rfl, fun y hy => h.valid_iff.mp (hbefore y hy), hinvalid, hrefused⟩

end Decides

namespace Template

/-! ## Texts and addresses -/

/-- The fields of an entry. -/
def entryFields (row : List (String × Json)) : FieldMap :=
  Legacy.normalizeMembers policyListHints row

/-- The text at a path of an entry, if a literal is configured there. -/
def textAt? (row : List (String × Json)) (field : String) : Option String :=
  match configured? (entryFields row) field with
  | some (.fixed l) => some l.text
  | _ => none

/-- Why the text at a path of an entry is refused: there is nothing, or no literal, or its text is
    not of a certain form. -/
inductive TextRefused (row : List (String × Json)) (field : String) (Form : String → Prop)
    (complaint : String → String) : ConversionError → Prop where
  | missing (h : configured? (entryFields row) field = none) :
      TextRefused row field Form complaint (.missing field)
  | unknown {v : TypedValue} (h : configured? (entryFields row) field = some v)
      (hunknown : textAt? row field = none) : TextRefused row field Form complaint
        (.unsupported field "policy list entries must be literal values")
  | malformed {s : String} (h : textAt? row field = some s) (hform : ¬ Form s) :
      TextRefused row field Form complaint (.unsupported field (complaint s))

/-- Why the addresses at a path of an entry are refused: there is nothing, or nothing that denotes
    addresses, or they are of the wrong family. -/
inductive AddressesRefused (row : List (String × Json)) (field : String) (newer : Bool) :
    ConversionError → Prop where
  | missing (h : configured? (entryFields row) field = none) :
      AddressesRefused row field newer (.missing field)
  | unknown {v : TypedValue} (h : configured? (entryFields row) field = some v)
      (hunknown : Legacy.addressesAt? row field = none) : AddressesRefused row field newer
        (.unsupported field
          ("'" ++ (v.literal?.map Literal.text).getD "" ++ "' is not a prefix"))
  | foreign {form : Net.AddressForm} (h : Legacy.addressesAt? row field = some form)
      (hfamily : form.toNetwork.isV6 ≠ newer) : AddressesRefused row field newer
        (.unsupported field ("'" ++ form.toNetwork.text ++ "' has the wrong address family"))

variable {row : List (String × Json)} {field : String}

theorem entryText_eq (fields : FieldMap) (field : String) (complaint : String → String) :
    entryText fields field = checkedText fields field (fun _ => true) complaint := by
  rw [checkedText]
  cases entryText fields field with
  | error e => rfl
  | ok s => rfl

theorem entryText_of_text {s : String} (h : textAt? row field = some s) :
    entryText (entryFields row) field = .ok s := by
  rw [textAt?] at h
  rw [entryText, required]
  cases hv : configured? (entryFields row) field with
  | none =>
    rw [hv] at h
    cases h
  | some v =>
    rw [hv] at h
    cases v with
    | fixed l => exact congrArg Except.ok (Option.some.inj h)
    | reference | inherited => cases h

theorem entryText_of_none (h : textAt? row field = none) {v : TypedValue}
    (hv : configured? (entryFields row) field = some v) : entryText (entryFields row) field =
      .error (.unsupported field "policy list entries must be literal values") := by
  rw [textAt?, hv] at h
  rw [entryText, required, hv]
  cases v with
  | fixed l => cases h
  | reference | inherited => rfl

/-- A text of an entry is read exactly if it is of the form that is asked for. -/
theorem checkedText_decides {field : List (String × Json) → String} {valid : String → Bool}
    {Form : String → Prop} (hvalid : ∀ s, valid s = true ↔ Form s) (complaint : String → String) :
    Decides (fun row => checkedText (entryFields row) (field row) valid complaint)
      (fun row => ∃ s, textAt? row (field row) = some s ∧ Form s)
      (fun row s => textAt? row (field row) = some s)
      (fun row => TextRefused row (field row) Form complaint) := by
  refine .of_cases fun row => ?_
  cases htext : textAt? row (field row) with
  | some s =>
    have hread : checkedText (entryFields row) (field row) valid complaint =
        if valid s then .ok s else .error (.unsupported (field row) (complaint s)) := by
      rw [checkedText, entryText_of_text htext]
      rfl
    by_cases hform : Form s
    · rw [if_pos ((hvalid s).mpr hform)] at hread
      exact .inl ⟨⟨s, rfl, hform⟩, s, hread, rfl⟩
    · rw [if_neg (mt (hvalid s).mp hform)] at hread
      refine .inr ⟨?_, _, hread, .malformed htext hform⟩
      rintro ⟨s', hs', hform'⟩
      exact hform (Option.some.inj hs' ▸ hform')
  | none =>
    have hinvalid : ¬ ∃ s, none = some s ∧ Form s := by
      rintro ⟨s, hs, -⟩
      cases hs
    refine .inr ⟨hinvalid, ?_⟩
    cases hv : configured? (entryFields row) (field row) with
    | none =>
      refine ⟨_, ?_, .missing hv⟩
      rw [checkedText, entryText, required, hv]
      rfl
    | some v =>
      refine ⟨_, ?_, .unknown hv htext⟩
      rw [checkedText, entryText_of_none htext hv]
      rfl

theorem entryNetwork_of_addresses (hkind : policyListHints.kind? field = some .address)
    {form : Net.AddressForm} (h : Legacy.addressesAt? row field = some form) :
    entryNetwork (entryFields row) field = .ok form.toNetwork := by
  have hvalue : (entryFields row).value? field = some (.fixed (.ofAddressForm form)) :=
    (Legacy.value?_addresses_iff hkind).mpr h
  rw [entryNetwork, required, configured?, hvalue]
  cases form with
  | address a => rfl
  | network n => rfl

theorem entryNetwork_of_none (hkind : policyListHints.kind? field = some .address)
    (h : Legacy.addressesAt? row field = none) {v : TypedValue}
    (hv : configured? (entryFields row) field = some v) :
    entryNetwork (entryFields row) field = .error (.unsupported field
      ("'" ++ (v.literal?.map Literal.text).getD "" ++ "' is not a prefix")) := by
  have hne : ∀ form, v ≠ .fixed (.ofAddressForm form) := by
    rintro form rfl
    have hvalue := (Option.filter_eq_some_iff.mp hv).1
    have hform := (Legacy.value?_addresses_iff hkind).mp hvalue
    cases h.symm.trans hform
  rw [entryNetwork, required, hv]
  cases v with
  | reference | inherited => rfl
  | fixed l =>
    cases l with
    | address a => exact absurd rfl (hne (.address a))
    | network n => exact absurd rfl (hne (.network n))
    | bool | int | float | str | list | raw => rfl

/-- An item with an address and a prefix length. -/
def networkItem (newer : Bool) (address : String) (length : Int64) : FieldMap :=
  if newer then [("ipv6Address", .text address), ("ipv6PrefixLength", .value (.int length))]
  else [("ipv4Address", .text address), ("ipv4PrefixLength", .value (.int length))]

/-- An item whose address and prefix length denote these addresses, no bit being set behind the
    prefix. -/
def Denotes (newer : Bool) (form : Net.AddressForm) (item : FieldMap) : Prop :=
  ∃ address length n, item = networkItem newer address length ∧
    Network.ofText? (address ++ "/" ++ toString length.toInt) = some n ∧
    n.isV6 = newer ∧ address = n.base.text ∧ ∀ b, n.Contains b ↔ form.Contains b

theorem toInt_ofNat_length (n : Network) : (Int64.ofNat n.length).toInt = n.length := by
  have hlength : n.length ≤ 128 := by
    cases n with
    | v4 a k => exact Nat.le_trans (Nat.le_of_lt_succ k.isLt) (by decide)
    | v6 a k => exact Nat.le_of_lt_succ k.isLt
  exact Int64.toInt_ofNat_of_lt (by omega)

theorem denotes_network {newer : Bool} {form : Net.AddressForm}
    (hfamily : form.toNetwork.isV6 = newer) : Denotes newer form
      (networkItem newer form.toNetwork.base.text (Int64.ofNat form.toNetwork.length)) := by
  refine ⟨_, _, form.toNetwork.cleared, rfl, ?_, ?_, ?_, fun b => ?_⟩
  · rw [toInt_ofNat_length]
    have htext := form.toNetwork.text_cleared
    rw [← Network.ofText?_text, htext]
    rfl
  · rw [Network.isV6_cleared, hfamily]
  · rw [Network.base_cleared]
  · rw [Network.contains_cleared, Net.AddressForm.contains_toNetwork]

/-- The addresses of an entry are read exactly if they are of the family that is asked for. -/
theorem prefixEntry_decides {field : String} (hkind : policyListHints.kind? field = some .address)
    (newer : Bool) :
    Decides (fun row => prefixEntry (entryFields row) field newer)
      (fun row => ∃ form, Legacy.addressesAt? row field = some form ∧ form.toNetwork.isV6 = newer)
      (fun row out => ∃ form, Legacy.addressesAt? row field = some form ∧
        Denotes newer form (networkItem newer out.1 out.2))
      (fun row => AddressesRefused row field newer) := by
  refine .of_cases fun row => ?_
  cases haddresses : Legacy.addressesAt? row field with
  | some form =>
    have hread : prefixEntry (entryFields row) field newer =
        if form.toNetwork.isV6 = newer then
          .ok (form.toNetwork.base.text, Int64.ofNat form.toNetwork.length)
        else .error (.unsupported field
          ("'" ++ form.toNetwork.text ++ "' has the wrong address family")) := by
      rw [prefixEntry, entryNetwork_of_addresses hkind haddresses]
      rfl
    by_cases hfamily : form.toNetwork.isV6 = newer
    · rw [if_pos hfamily] at hread
      exact .inl ⟨⟨form, rfl, hfamily⟩, _, hread, form, rfl, denotes_network hfamily⟩
    · rw [if_neg hfamily] at hread
      refine .inr ⟨?_, _, hread, .foreign haddresses hfamily⟩
      rintro ⟨form', hform', hfamily'⟩
      exact hfamily (Option.some.inj hform' ▸ hfamily')
  | none =>
    have hinvalid : ¬ ∃ form : Net.AddressForm, none = some form ∧ form.toNetwork.isV6 = newer := by
      rintro ⟨form, hform, -⟩
      cases hform
    refine .inr ⟨hinvalid, ?_⟩
    cases hv : configured? (entryFields row) field with
    | none =>
      refine ⟨_, ?_, .missing hv⟩
      rw [prefixEntry, entryNetwork, required, hv]
      rfl
    | some v =>
      refine ⟨_, ?_, .unknown hv haddresses⟩
      rw [prefixEntry, entryNetwork_of_none hkind haddresses hv]
      rfl

/-! ## Entries -/

/-- The family of the networks of a list, if it is a list of networks. -/
def newer? : ParcelType → Option Bool
  | .dataPrefix => some false
  | .dataIpv6Prefix => some true
  | _ => none

/-- Where an entry of a list of a type is read. An application is one of a family, if the entry
    names a family. -/
def entryField (row : List (String × Json)) : ParcelType → String
  | .dataPrefix => "ipPrefix"
  | .dataIpv6Prefix => "ipv6Prefix"
  | .asPath => "asPath"
  | .color => "color"
  | .appList => if ((entryFields row).value? "appFamily").isSome then "appFamily" else "app"
  | _ => "community"

/-- The form that the text of an entry must have. -/
def WellFormed : ParcelType → String → Prop
  | .standardCommunity, s => s ∈ Community.wellKnown ∨ ∃ high low, Community.isNumber high = true ∧
      Community.isNumber low = true ∧ s.toList = high ++ ':' :: low
  | .extCommunity, s => ∃ kind ∈ ["rt", "soo"], ∃ target number, target ≠ [] ∧
      (∀ c ∈ target, Community.isAsciiBlank c = false) ∧ Community.isNumber number = true ∧
        s.toList = kind.toList ++ ' ' :: (target ++ ':' :: number)
  | .color, s => s ∈ tlocColors
  | _, _ => True

/-- What is said of a text that has not that form. -/
def complaint : ParcelType → String → String
  | .standardCommunity, s => "'" ++ s ++ "' is not a standard community"
  | .extCommunity, s => "'" ++ s ++ "' is not an extended community"
  | _, s => "unknown color '" ++ s ++ "'"

/-- An entry that a list of a type may have. -/
def ValidEntry (type : ParcelType) (row : List (String × Json)) : Prop :=
  match newer? type with
  | some newer => ∃ form, Legacy.addressesAt? row (entryField row type) = some form ∧
      form.toNetwork.isV6 = newer
  | none => ∃ s, textAt? row (entryField row type) = some s ∧ WellFormed type s

/-- Why any other one is refused. -/
def EntryRefused (type : ParcelType) (row : List (String × Json)) : ConversionError → Prop :=
  match newer? type with
  | some newer => AddressesRefused row (entryField row type) newer
  | none => TextRefused row (entryField row type) (WellFormed type) (complaint type)

/-- The name of the text in an item. -/
def itemField (row : List (String × Json)) : ParcelType → String
  | .asPath => "asPathList"
  | .standardCommunity => "standardCommunity"
  | .extCommunity => "extCommunity"
  | type => entryField row type

/-- The item that is made of an entry. -/
def MadeOf (type : ParcelType) (row : List (String × Json)) (item : FieldMap) : Prop :=
  match newer? type with
  | some newer => ∃ form, Legacy.addressesAt? row (entryField row type) = some form ∧
      Denotes newer form item
  | none => ∃ s, textAt? row (entryField row type) = some s ∧ item = [(itemField row type, .text s)]

theorem listEntry_networks (row : List (String × Json)) : ∀ type newer, newer? type = some newer →
    listEntry type (entryFields row) =
      (prefixEntry (entryFields row) (entryField row type) newer).map fun out =>
        networkItem newer out.1 out.2 := by
  intro type newer htype
  cases type with
  | dataPrefix =>
    obtain rfl := Option.some.inj htype
    rw [listEntry, entryField]
    cases prefixEntry (entryFields row) "ipPrefix" false with
    | error e => rfl
    | ok out => rfl
  | dataIpv6Prefix =>
    obtain rfl := Option.some.inj htype
    rw [listEntry, entryField]
    cases prefixEntry (entryFields row) "ipv6Prefix" true with
    | error e => rfl
    | ok out => rfl
  | _ => cases htype

/-- Whether a text is of the form that a list of a type asks for. -/
def isWellFormed : ParcelType → String → Bool
  | .standardCommunity => Community.isStandard
  | .extCommunity => Community.isExtended
  | .color => tlocColors.contains
  | _ => fun _ => true

theorem isWellFormed_iff (type : ParcelType) (s : String) :
    isWellFormed type s = true ↔ WellFormed type s := by
  cases type with
  | standardCommunity => exact Community.isStandard_iff
  | extCommunity => exact Community.isExtended_iff
  | color => exact List.contains_iff_mem
  | _ => exact iff_of_true rfl trivial

/-- The types of lists whose entries become items with a text. -/
def textTypes : List ParcelType := [.asPath, .standardCommunity, .extCommunity, .color, .appList]

theorem listEntry_text (row : List (String × Json)) : ∀ type ∈ textTypes,
    listEntry type (entryFields row) = (checkedText (entryFields row) (entryField row type)
      (isWellFormed type) (complaint type)).map (textItem (itemField row type)) := by
  intro type htype
  simp only [textTypes, List.mem_cons, List.not_mem_nil, or_false] at htype
  rcases htype with rfl | rfl | rfl | rfl | rfl
  · rw [listEntry, entryText_eq _ _ (complaint .asPath)]
    rfl
  · rfl
  · rfl
  · rfl
  · rw [listEntry, entryText_eq _ _ (complaint .appList), entryText_eq _ _ (complaint .appList)]
    have hfield : itemField row .appList = entryField row .appList := rfl
    rw [hfield, entryField]
    split
    · rfl
    · rfl

theorem newer?_of_mem_textTypes : ∀ type ∈ textTypes, newer? type = none := by decide

/-- An entry becomes an item exactly if it is valid. -/
theorem listEntry_decides {type : ParcelType} (htype : type ∈ listTypes.map (·.2))
    (hitems : type ≠ .expandedCommunity) :
    Decides (fun row => listEntry type (entryFields row)) (ValidEntry type) (MadeOf type)
      (EntryRefused type) := by
  have hcases : ∀ type ∈ listTypes.map (·.2), type ≠ .expandedCommunity →
      type ∈ textTypes ∨ type = .dataPrefix ∨ type = .dataIpv6Prefix := by
    decide
  -- Both families are read in one way, and every text in another
  rcases hcases type htype hitems with htext | rfl | rfl
  · have hnone := newer?_of_mem_textTypes type htext
    have hdecides : Decides (fun row => (checkedText (entryFields row) (entryField row type)
          (isWellFormed type) (complaint type)).map (textItem (itemField row type)))
        (fun row => ∃ s, textAt? row (entryField row type) = some s ∧ WellFormed type s)
        (fun row item => ∃ s, textAt? row (entryField row type) = some s ∧
          item = [(itemField row type, .text s)])
        (fun row => TextRefused row (entryField row type) (WellFormed type) (complaint type)) :=
      (checkedText_decides (isWellFormed_iff type) (complaint type)).map
        fun _ s hs => ⟨s, hs, rfl⟩
    constructor
    · intro row item h
      rw [listEntry_text row type htext] at h
      rw [ValidEntry, MadeOf, hnone]
      exact hdecides.made h
    · intro row e h
      rw [listEntry_text row type htext] at h
      rw [ValidEntry, EntryRefused, hnone]
      exact hdecides.refused h
  · rw [funext fun row => listEntry_networks row .dataPrefix false rfl]
    exact (prefixEntry_decides (by decide) false).map fun _ _ hmade => hmade
  · rw [funext fun row => listEntry_networks row .dataIpv6Prefix true rfl]
    exact (prefixEntry_decides (by decide) true).map fun _ _ hmade => hmade

/-- So does one of a list that is made of patterns, and what becomes of it is its text. -/
theorem pattern_decides :
    Decides (fun row => entryText (entryFields row) "community") (ValidEntry .expandedCommunity)
      (fun row s => textAt? row "community" = some s) (EntryRefused .expandedCommunity) := by
  rw [funext fun row => entryText_eq (entryFields row) "community" (complaint .expandedCommunity)]
  exact checkedText_decides (isWellFormed_iff .expandedCommunity) (complaint .expandedCommunity)

/-! ## Lists -/

/-- What a list of a type holds: the texts of its entries in one value, or one item for each
    entry. -/
def Lists (type : ParcelType) (rows : List (List (String × Json))) (data : FieldMap) : Prop :=
  if type = .expandedCommunity then
    ∃ texts, data = [("expandedCommunityList", .value (.fixed (.list (texts.map .str))))] ∧
      List.Forall₂ (fun row s => textAt? row "community" = some s) rows texts
  else ∃ items, data = [("entries", .items items)] ∧ List.Forall₂ (MadeOf type) rows items

/-- A list is made exactly if all its entries are valid. -/
theorem listData_decides {type : ParcelType} (htype : type ∈ listTypes.map (·.2)) :
    Decides (fun rows => listData type (rows.map entryFields))
      (fun rows => ∀ row ∈ rows, ValidEntry type row) (Lists type)
      (FirstRefused (ValidEntry type) (EntryRefused type)) := by
  by_cases hexpanded : type = .expandedCommunity
  · subst hexpanded
    have hread : ∀ rows : List (List (String × Json)),
        listData .expandedCommunity (rows.map entryFields) =
          (rows.mapM fun row => entryText (entryFields row) "community").map fun texts =>
            [("expandedCommunityList", .value (.fixed (.list (texts.map .str))))] := by
      intro rows
      rw [listData, if_pos rfl, List.mapM_map]
      exact bind_pure_comp _ _
    rw [funext hread]
    exact pattern_decides.mapM.map fun rows texts htexts => ⟨texts, rfl, htexts⟩
  · have hread : ∀ rows : List (List (String × Json)), listData type (rows.map entryFields) =
        (rows.mapM fun row => listEntry type (entryFields row)).map fun items =>
          [("entries", .items items)] := by
      intro rows
      rw [listData, if_neg hexpanded, List.mapM_map]
      exact bind_pure_comp _ _
    rw [funext hread]
    refine (listEntry_decides htype hexpanded).mapM.map fun rows items hitems => ?_
    rw [Lists, if_neg hexpanded]
    exact ⟨items, rfl, hitems⟩

theorem forall_mem_leavesOfRows {P : TypedValue → Prop} {rows : List FieldMap}
    (h : ∀ row ∈ rows, ∀ v ∈ row.leaves, P v) : ∀ v ∈ Field.leavesOfRows rows, P v := by
  induction rows with
  | nil => exact List.forall_mem_nil _
  | cons row rest ih =>
    obtain ⟨hrow, hrest⟩ := List.forall_mem_cons.mp h
    rw [Field.leavesOfRows]
    exact List.forall_mem_append.mpr ⟨hrow, ih hrest⟩

/-- An item holds nothing but fixed values. -/
theorem MadeOf.fixed {type : ParcelType} {item : FieldMap} (h : MadeOf type row item) :
    ∀ v ∈ item.leaves, ∃ l, v = .fixed l := by
  have hvalues : ∀ ls : List Literal, ∀ v ∈ ls.map TypedValue.fixed, ∃ l, v = .fixed l := by
    intro ls v hv
    obtain ⟨l, -, rfl⟩ := List.mem_map.mp hv
    exact ⟨l, rfl⟩
  rw [MadeOf] at h
  split at h
  · obtain ⟨form, -, address, length, n, rfl, -⟩ := h
    rw [networkItem]
    split
    · exact hvalues [.str address, .int length]
    · exact hvalues [.str address, .int length]
  · obtain ⟨s, -, rfl⟩ := h
    exact hvalues [.str s]

/-- Nor does a list. -/
theorem Lists.fixed {type : ParcelType} {rows : List (List (String × Json))} {data : FieldMap}
    (h : Lists type rows data) : ∀ v ∈ data.leaves, ∃ l, v = .fixed l := by
  rw [Lists] at h
  split at h
  · obtain ⟨texts, rfl, -⟩ := h
    exact List.forall_mem_singleton.mpr ⟨_, rfl⟩
  · obtain ⟨items, rfl, hitems⟩ := h
    have hleaves : FieldMap.leaves [("entries", .items items)] = Field.leavesOfRows items :=
      List.append_nil _
    rw [hleaves]
    exact forall_mem_leavesOfRows (forall_mem_of_forall₂ hitems fun row item => MadeOf.fixed)

theorem listType_mem {values : FieldMap} {type : ParcelType}
    (h : listTypeOf values = .ok type) : type ∈ listTypes.map (·.2) := by
  rw [listTypeOf] at h
  split at h
  · cases h
  · rename_i kind _
    cases hlookup : listType? kind with
    | none =>
      rw [hlookup] at h
      cases h
    | some found =>
      rw [hlookup] at h
      obtain rfl := Except.ok.inj h
      obtain ⟨before, after, hsplit, -⟩ := List.lookup_eq_some_iff.mp hlookup
      rw [hsplit]
      exact List.mem_map_of_mem (List.mem_append_right _ List.mem_cons_self)

end Template

open Template (ValidEntry EntryRefused Lists)

/-- The entries of a policy list: the objects of its list of entries. A list that holds anything
    else is a value, and there are no entries. -/
def LegacyObject.entries (o : LegacyObject) : List (List (String × Json)) :=
  Legacy.rowsAt o.root "entries"

theorem template?_of_listKind : ∀ kind ∈ Template.listTypes.map (·.1),
    template? kind = some ⟨Template.listTypes.map (·.1), Template.policyListHints,
      fun _ values => Template.policyList values⟩ := by
  intro kind hkind
  simp only [Template.listTypes, List.map_cons, List.map_nil, List.mem_cons, List.not_mem_nil,
    or_false] at hkind
  rcases hkind with rfl | rfl | rfl | rfl | rfl | rfl | rfl | rfl
  all_goals rfl

/-- A policy list converts as its entries do, if it has any. -/
theorem convert_list_eq {o : LegacyObject} {type : ParcelType}
    (hkind : o.kind ∈ Template.listTypes.map (·.1))
    (htype : Template.listTypeOf (Legacy.normalize Template.policyListHints o.definition) =
      .ok type) (id : Uuid) (c : Context) :
    convert o id c = if o.entries = [] then
        .error (.unsupported "entries" "a policy list needs at least one entry")
      else (Template.listData type (o.entries.map Template.entryFields)).map fun data =>
        ⟨some id, o.name, o.description, type, data⟩ := by
  -- None of the list types is the one that is read below a group
  have hplain : ∀ kind ∈ Template.listTypes.map (·.1), kind ≠ "cisco_ospf" := by decide
  have hroot := Template.root_normalize Template.policyListHints o
  rw [Template.root, if_neg (hplain o.kind hkind)] at hroot
  have hentries : (Legacy.normalize Template.policyListHints o.definition).items "entries" =
      o.entries.map Template.entryFields := by
    rw [hroot, Legacy.items_normalizeMembers]
    rfl
  have hlist : Template.policyList (Legacy.normalize Template.policyListHints o.definition) =
      if o.entries = [] then
        .error (.unsupported "entries" "a policy list needs at least one entry")
      else (Template.listData type (o.entries.map Template.entryFields)).map (type, ·) := by
    rw [Template.policyList, htype, hentries]
    dsimp only [bind, Except.bind]
    cases o.entries with
    | nil => rfl
    | cons row rest => rfl
  rw [convert, template?_of_listKind o.kind hkind]
  dsimp only
  rw [hlist]
  split
  · rfl
  · cases Template.listData type (o.entries.map Template.entryFields) with
    | error e => rfl
    | ok data => rfl

section Lists

variable {o : LegacyObject} {type : ParcelType}

/-- A list with entries converts exactly if all of them are valid. -/
theorem convert_list_ok_iff (hkind : o.kind ∈ Template.listTypes.map (·.1))
    (htype : Template.listTypeOf (Legacy.normalize Template.policyListHints o.definition) =
      .ok type) (hne : o.entries ≠ []) (id : Uuid) (c : Context) :
    (∃ p, convert o id c = .ok p) ↔ ∀ entry ∈ o.entries, ValidEntry type entry := by
  have hdecides := Template.listData_decides (Template.listType_mem htype)
  rw [convert_list_eq hkind htype, if_neg hne, ← hdecides.valid_iff]
  constructor
  · rintro ⟨p, hp⟩
    obtain ⟨data, hdata, -⟩ := map_eq_ok hp
    exact ⟨data, hdata⟩
  · rintro ⟨data, hdata⟩
    exact ⟨_, congrArg (Except.map _) hdata⟩

/-- It becomes a parcel of its type that holds what its entries say. -/
theorem lists_of_convert (hkind : o.kind ∈ Template.listTypes.map (·.1))
    (htype : Template.listTypeOf (Legacy.normalize Template.policyListHints o.definition) =
      .ok type) (hne : o.entries ≠ []) {id : Uuid} {c : Context} {p : Parcel}
    (h : convert o id c = .ok p) : p.type = type ∧ Lists type o.entries p.data := by
  rw [convert_list_eq hkind htype, if_neg hne] at h
  obtain ⟨data, hdata, rfl⟩ := map_eq_ok h
  exact ⟨rfl, ((Template.listData_decides (Template.listType_mem htype)).made hdata).2⟩

/-- It is refused for an entry that is not valid, if those before it are. -/
theorem refused_of_convert (hkind : o.kind ∈ Template.listTypes.map (·.1))
    (htype : Template.listTypeOf (Legacy.normalize Template.policyListHints o.definition) =
      .ok type) {before after : List (List (String × Json))} {row : List (String × Json)}
    (hentries : o.entries = before ++ row :: after)
    (hbefore : ∀ entry ∈ before, ValidEntry type entry) (hrow : ¬ ValidEntry type row) (id : Uuid)
    (c : Context) : ∃ e, convert o id c = .error e ∧ EntryRefused type row e := by
  have hdecides := Template.listData_decides (Template.listType_mem htype)
  have hne : o.entries ≠ [] := by
    rw [hentries]
    exact List.append_ne_nil_of_right_ne_nil before (List.cons_ne_nil row after)
  have hmem : row ∈ o.entries := by
    rw [hentries]
    exact List.mem_append_right before List.mem_cons_self
  rw [convert_list_eq hkind htype, if_neg hne]
  cases hread : Template.listData type (o.entries.map Template.entryFields) with
  | ok data => exact absurd ((hdecides.made hread).1 row hmem) hrow
  | error e =>
    have hfirst := (hdecides.refused hread).2
    rw [hentries] at hfirst
    exact ⟨e, rfl, hfirst.refused hbefore hrow⟩

end Lists

/-- Policy lists are converted faithfully or not at all. A list of a supported type converts exactly
    if it has entries and all of them are valid for the type. Then it holds one item for each entry,
    in their order, and no value but fixed ones; and else it fails as the first entry that is not
    valid. -/
theorem convert_policyList {o : LegacyObject} {type : ParcelType}
    (hkind : o.kind ∈ Template.listTypes.map (·.1))
    (htype : Template.listTypeOf (Legacy.normalize Template.policyListHints o.definition) =
      .ok type) (id : Uuid) (c : Context) :
    ((∃ p, convert o id c = .ok p) ↔ o.entries ≠ [] ∧ ∀ entry ∈ o.entries, ValidEntry type entry) ∧
    (∀ p, convert o id c = .ok p → p.type = type ∧ Lists type o.entries p.data ∧
      ∀ v ∈ p.data.leaves, ∃ l, v = .fixed l) ∧
    ∀ e, convert o id c = .error e →
      o.entries = [] ∧ e = .unsupported "entries" "a policy list needs at least one entry" ∨
      FirstRefused (ValidEntry type) (EntryRefused type) o.entries e := by
  have hdecides : Decides (fun rows => (Template.listData type (rows.map Template.entryFields)).map
        fun data => (⟨some id, o.name, o.description, type, data⟩ : Parcel))
      (fun rows => ∀ entry ∈ rows, ValidEntry type entry)
      (fun rows p => p.type = type ∧ Lists type rows p.data)
      (FirstRefused (ValidEntry type) (EntryRefused type)) :=
    (Template.listData_decides (Template.listType_mem htype)).map fun _ _ hdata => ⟨rfl, hdata⟩
  rw [convert_list_eq hkind htype]
  by_cases hempty : o.entries = []
  · rw [if_pos hempty]
    refine ⟨iff_of_false ?_ fun h => h.1 hempty, fun p hp => ?_,
      fun e he => .inl ⟨hempty, (Except.error.inj he).symm⟩⟩
    · rintro ⟨p, hp⟩
      cases hp
    · cases hp
  · rw [if_neg hempty]
    refine ⟨hdecides.valid_iff.trans (and_iff_right hempty).symm, fun p hp => ?_, fun e he => ?_⟩
    · obtain ⟨-, htype, hlists⟩ := hdecides.made hp
      exact ⟨htype, hlists, hlists.fixed⟩
    · exact .inr (hdecides.refused he).2

/-- A list of a network and an address, and one with an address of the wrong family. -/
def prefixList (second : String) : LegacyObject :=
  objectOf "dataPrefix" [("name", .str "list"), ("type", .str "dataPrefix"),
    ("entries", .arr [.obj [("ipPrefix", .str "10.1.2.3/8")], .obj [("ipPrefix", .str second)]])]

/-- Bits behind the prefix are cleared, an address gets the full length, and one of the wrong family
    is refused. -/
theorem convert_policyList_prefixes :
    (∃ p, convert (prefixList "192.0.2.7") (generatedId .policyList "x") ⟨[], []⟩ = .ok p ∧
      Lists .dataPrefix (prefixList "192.0.2.7").entries p.data ∧
      p.data = [("entries", .items [
        [("ipv4Address", .text "10.0.0.0"), ("ipv4PrefixLength", .value (.int 8))],
        [("ipv4Address", .text "192.0.2.7"), ("ipv4PrefixLength", .value (.int 32))]])]) ∧
    FirstRefused (ValidEntry .dataPrefix) (EntryRefused .dataPrefix) (prefixList "::1").entries
      (.unsupported "ipPrefix" "'::1/128' has the wrong address family") := by
  have hconverts : (convert (prefixList "192.0.2.7") (generatedId .policyList "x") ⟨[], []⟩).map
      (·.data) = .ok [("entries", .items [
        [("ipv4Address", .text "10.0.0.0"), ("ipv4PrefixLength", .value (.int 8))],
        [("ipv4Address", .text "192.0.2.7"), ("ipv4PrefixLength", .value (.int 32))]])] := by
    decide +kernel
  have hfails : convert (prefixList "::1") (generatedId .policyList "x") ⟨[], []⟩ =
      .error (.unsupported "ipPrefix" "'::1/128' has the wrong address family") := by
    decide +kernel
  have hentries : (prefixList "::1").entries ≠ [] := by decide +kernel
  obtain ⟨p, hp, hdata⟩ := map_eq_ok hconverts
  obtain ⟨-, hlists, -⟩ := (@convert_policyList (prefixList "192.0.2.7") .dataPrefix
    (by decide) (by decide +kernel) (generatedId .policyList "x") ⟨[], []⟩).2.1 p hp
  have hrefused := (@convert_policyList (prefixList "::1") .dataPrefix
    (by decide) (by decide +kernel) (generatedId .policyList "x") ⟨[], []⟩).2.2 _ hfails
  exact ⟨⟨p, hp, hlists, hdata⟩, hrefused.resolve_left fun hempty => hentries hempty.1⟩

end ProfileMigration
