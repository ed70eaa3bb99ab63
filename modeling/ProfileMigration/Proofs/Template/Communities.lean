/-
  ProfileMigration.Proofs.Template.Communities

  Lists of communities, standard and extended ones:

    Community.Form              -- a type of list, with the names and the pattern of its entries
    Community.Form.Admits       -- a text has one of the names, or the pattern is found in it
    Community.admits_iff        -- these are the texts of the written form, and no others
    Template.validEntry_of_text -- an entry is valid if its text is, without the blanks around it
    item_of_text                -- and its item has that text and nothing else
    convert_communities         -- each entry is accepted exactly then, and carried over unchanged

  The middle of an extended community may have colons. A search may cut it at any of them, and only
  the last one has nothing but digits behind it.
-/
import ProfileMigration.Proofs.Template.PolicyEntries
import ProfileMigration.Proofs.Template.Texts
import ProfileMigration.Proofs.Text.Pattern

namespace ProfileMigration

/-! ## Written forms -/

namespace Community

/-- What the entries of a type of list are checked against. -/
structure Form where
  /-- The type of such lists. -/
  type : ParcelType
  /-- The name of the text in their items. -/
  leaf : String
  /-- The texts that are names. -/
  names : List String
  /-- The pattern of the others. -/
  pattern : Pattern

/-- One or more digits. -/
def number : Pattern := .plus (.one Char.isDigit)

/-- A well-known name, or two numbers with a colon between them. -/
def standardForm : Form where
  type := .standardCommunity
  leaf := "standardCommunity"
  names := wellKnown
  pattern := .whole (number.seq ((Pattern.text ":").seq number))

/-- `rt` or `soo`, a blank, a text without blanks, a colon and a number. -/
def extendedForm : Form where
  type := .extCommunity
  leaf := "extCommunity"
  names := []
  pattern := .whole (((Pattern.text "rt").either (.text "soo")).seq ((Pattern.text " ").seq
    ((Pattern.plus (.one fun c => !isAsciiBlank c)).seq ((Pattern.text ":").seq number))))

/-- The forms of communities. -/
def forms : List Form := [standardForm, extendedForm]

/-- A text passes the check of a form. -/
def Form.Admits (form : Form) (s : String) : Prop := s ∈ form.names ∨ form.pattern.FoundIn s

variable {before part after : List Char} {s : String}

theorem matches_number_iff : number.Matches before part after ↔ isNumber part = true :=
  Pattern.matches_plus_one_iff.trans isNumber_iff.symm

/-- A standard community passes if it is a name, or two numbers with a colon between them. -/
theorem standardForm_admits_iff :
    standardForm.Admits s ↔ Template.WellFormed .standardCommunity s := by
  have hpattern : standardForm.pattern.FoundIn s ↔ ∃ high low, isNumber high = true ∧
      isNumber low = true ∧ s.toList = high ++ ':' :: low := by
    rw [standardForm, Pattern.foundIn_whole_iff, Pattern.matches_seq_text_iff]
    constructor
    · rintro ⟨high, low, hs, hhigh, hlow⟩
      exact ⟨high, low, matches_number_iff.mp hhigh, matches_number_iff.mp hlow, hs⟩
    · rintro ⟨high, low, hhigh, hlow, hs⟩
      exact ⟨high, low, hs, matches_number_iff.mpr hhigh, matches_number_iff.mpr hlow⟩
  exact or_congr Iff.rfl hpattern

theorem matches_kind_iff : ((Pattern.text "rt").either (.text "soo")).Matches before part after ↔
    ∃ kind ∈ ["rt", "soo"], part = kind.toList := by
  rw [Pattern.matches_either_iff, Pattern.matches_text_iff, Pattern.matches_text_iff]
  simp

/-- A text without blanks, whatever else is in it, a colon and a number. -/
theorem matches_target_iff :
    ((Pattern.plus (.one fun c => !isAsciiBlank c)).seq ((Pattern.text ":").seq number)).Matches
      before part after ↔ ∃ target number, target ≠ [] ∧ (∀ c ∈ target, isAsciiBlank c = false) ∧
        isNumber number = true ∧ part = target ++ ':' :: number := by
  rw [Pattern.matches_seq_text_iff]
  constructor
  -- A match may take any colon for the one in between, if digits are all that is behind it
  · rintro ⟨target, digits, hpart, htarget, hdigits⟩
    obtain ⟨hne, hsolid⟩ := Pattern.matches_plus_one_iff.mp htarget
    refine ⟨target, digits, hne, fun c hc => ?_, matches_number_iff.mp hdigits, hpart⟩
    simpa using hsolid c hc
  · rintro ⟨target, digits, hne, hsolid, hdigits, hpart⟩
    refine ⟨target, digits, hpart, Pattern.matches_plus_one_iff.mpr ⟨hne, fun c hc => ?_⟩,
      matches_number_iff.mpr hdigits⟩
    rw [hsolid c hc]
    rfl

/-- An extended community passes if it is one of two kinds, a blank, a text without blanks, a colon
    and a number. -/
theorem extendedForm_admits_iff : extendedForm.Admits s ↔ Template.WellFormed .extCommunity s := by
  -- No extended community has a name
  have hnone : extendedForm.Admits s ↔ extendedForm.pattern.FoundIn s :=
    or_iff_right List.not_mem_nil
  rw [hnone, extendedForm, Pattern.foundIn_whole_iff, Pattern.matches_seq_text_iff]
  constructor
  · rintro ⟨front, rest, hs, hkind, hrest⟩
    obtain ⟨kind, hmem, rfl⟩ := matches_kind_iff.mp hkind
    obtain ⟨target, digits, hne, hsolid, hdigits, rfl⟩ := matches_target_iff.mp hrest
    exact ⟨kind, hmem, target, digits, hne, hsolid, hdigits, hs⟩
  · rintro ⟨kind, hmem, target, digits, hne, hsolid, hdigits, hs⟩
    exact ⟨kind.toList, _, hs, matches_kind_iff.mpr ⟨kind, hmem, rfl⟩,
      matches_target_iff.mpr ⟨target, digits, hne, hsolid, hdigits, rfl⟩⟩

/-- The check of a form accepts the texts of the written form, and no others. -/
theorem admits_iff {form : Form} (hform : form ∈ forms) (s : String) :
    form.Admits s ↔ Template.WellFormed form.type s := by
  rcases List.mem_pair.mp hform with rfl | rfl
  · exact standardForm_admits_iff
  · exact extendedForm_admits_iff

end Community

/-! ## Entries with texts -/

namespace Template

variable {form : Community.Form} {row : List (String × Json)} {s : String}

/-- Where the text of an entry is read, and where it goes. -/
theorem community_fields (hform : form ∈ Community.forms) (row : List (String × Json)) :
    newer? form.type = none ∧ entryField row form.type = "community" ∧
      itemField row form.type = form.leaf := by
  rcases List.mem_pair.mp hform with rfl | rfl
  · exact ⟨rfl, rfl, rfl⟩
  · exact ⟨rfl, rfl, rfl⟩

/-- The empty text is no community. -/
theorem not_wellFormed_empty (hform : form ∈ Community.forms) : ¬ WellFormed form.type "" := by
  rcases List.mem_pair.mp hform with rfl | rfl
  · rintro (hname | ⟨high, low, -, -, hempty⟩)
    · exact absurd hname (by decide)
    · exact List.cons_ne_nil ':' low (List.append_eq_nil_iff.mp hempty.symm).2
  · rintro ⟨kind, -, target, number, -, -, -, hempty⟩
    exact List.cons_ne_nil ' ' _ (List.append_eq_nil_iff.mp hempty.symm).2

theorem configured?_community (hs : Legacy.contentAt? row "community" = some (.str s)) :
    configured? (entryFields row) "community" =
      if Text.trim s = "" then none else some (.text (Text.trim s)) :=
  configured?_of_text (Legacy.value?_text (by decide) hs)

theorem textAt?_community (hs : Legacy.contentAt? row "community" = some (.str s)) :
    textAt? row "community" = if Text.trim s = "" then none else some (Text.trim s) := by
  rw [textAt?, configured?_community hs]
  by_cases hblank : Text.trim s = ""
  · rw [if_pos hblank, if_pos hblank]
  · rw [if_neg hblank, if_neg hblank]
    rfl

/-- An entry with a text is valid if the text is a community, without the blanks around it. -/
theorem validEntry_of_text (hform : form ∈ Community.forms)
    (hs : Legacy.contentAt? row "community" = some (.str s)) :
    ValidEntry form.type row ↔ WellFormed form.type (Text.trim s) := by
  obtain ⟨hnewer, hfield, -⟩ := community_fields hform row
  rw [ValidEntry, hnewer]
  dsimp only
  rw [hfield, textAt?_community hs]
  by_cases hblank : Text.trim s = ""
  · rw [if_pos hblank, hblank]
    refine iff_of_false ?_ (not_wellFormed_empty hform)
    rintro ⟨t, ht, -⟩
    cases ht
  · rw [if_neg hblank]
    constructor
    · rintro ⟨t, ht, hvalid⟩
      exact Option.some.inj ht ▸ hvalid
    · intro hvalid
      exact ⟨_, rfl, hvalid⟩

/-- The item that is made of it has that text and nothing else. -/
theorem madeOf_of_text (hform : form ∈ Community.forms)
    (hs : Legacy.contentAt? row "community" = some (.str s)) {item : FieldMap}
    (h : MadeOf form.type row item) : item = [(form.leaf, .text (Text.trim s))] := by
  obtain ⟨hnewer, hfield, hleaf⟩ := community_fields hform row
  rw [MadeOf, hnewer] at h
  dsimp only at h
  rw [hfield, hleaf, textAt?_community hs] at h
  obtain ⟨t, ht, rfl⟩ := h
  by_cases hblank : Text.trim s = ""
  · rw [if_pos hblank] at ht
    cases ht
  · rw [if_neg hblank] at ht
    rw [Option.some.inj ht]

/-- What is said of a text that is no community. -/
def communityError (type : ParcelType) (s : String) : ConversionError :=
  if s = "" then .missing "community" else .unsupported "community" (complaint type s)

/-- An entry with a text is refused for that text. -/
theorem refused_of_text (hform : form ∈ Community.forms)
    (hs : Legacy.contentAt? row "community" = some (.str s)) {e : ConversionError}
    (h : EntryRefused form.type row e) : e = communityError form.type (Text.trim s) := by
  obtain ⟨hnewer, hfield, -⟩ := community_fields hform row
  have hconfigured := configured?_community hs
  have htext := textAt?_community hs
  rw [EntryRefused, hnewer] at h
  dsimp only at h
  rw [hfield] at h
  rw [communityError]
  by_cases hblank : Text.trim s = ""
  · rw [if_pos hblank] at hconfigured htext ⊢
    cases h with
    | missing => rfl
    | unknown hsome => cases hconfigured.symm.trans hsome
    | malformed hsome => cases htext.symm.trans hsome
  · rw [if_neg hblank] at hconfigured htext ⊢
    cases h with
    | missing hnone => cases hconfigured.symm.trans hnone
    | unknown _ hnone => cases htext.symm.trans hnone
    | malformed hsome => rw [Option.some.inj (htext.symm.trans hsome)]

end Template

/-! ## Converted lists -/

/-- Where the text of an entry stands in a parcel. -/
def communityPlace (form : Community.Form) (i : Nat) : List Step :=
  [.under "entries", .item i, .under form.leaf]

/-- An item with a text stands where its entry did. -/
theorem at?_communityPlace {form : Community.Form} {items : List FieldMap} {i : Nat} {t : String}
    (h : items[i]? = some [(form.leaf, .text t)]) :
    (Field.group [("entries", .items items)]).at? (communityPlace form i) =
      some (.value (.fixed (.str t))) := by
  rw [communityPlace, Field.at?, Keyed.get?_cons_self, Option.bind_some, Field.at?, h,
    Option.bind_some, Field.at?, Keyed.get?_cons_self]
  rfl

open Template (WellFormed ValidEntry communityError)

/-- In a converted list each entry with a text is an item with that text and nothing else, without
    the blanks around it. -/
theorem item_of_text {o : LegacyObject} {form : Community.Form} {p : Parcel}
    (hform : form ∈ Community.forms) (h : Template.Lists form.type o.entries p.data) {i : Nat}
    {row : List (String × Json)} (hrow : o.entries[i]? = some row) {s : String}
    (hs : Legacy.contentAt? row "community" = some (.str s)) :
    ∃ items, p.data = [("entries", .items items)] ∧ items.length = o.entries.length ∧
      items[i]? = some [(form.leaf, .text (Text.trim s))] := by
  have hitems : form.type ≠ .expandedCommunity := by
    rcases List.mem_pair.mp hform with rfl | rfl
    · decide
    · decide
  rw [Template.Lists, if_neg hitems] at h
  obtain ⟨items, hdata, hmade⟩ := h
  obtain ⟨item, hitem, hmadeOf⟩ := getElem?_of_forall₂ hmade hrow
  obtain rfl := Template.madeOf_of_text hform hs hmadeOf
  exact ⟨items, hdata, hmade.length_eq.symm, hitem⟩

/-- Entries of lists of communities are accepted exactly as the grammars say. The check of either
    form lets a text pass exactly if it is of the written form, as a whole. A list converts exactly
    if the text of an entry passes, without the blanks around it, and its other entries are valid.
    Then the entry has become an item with that text and nothing else, and every request body has
    the text there. A text that does not pass is what the list is refused for, if the entries before
    it are valid. -/
theorem convert_communities {o : LegacyObject} {form : Community.Form}
    (hkind : o.kind ∈ Template.listTypes.map (·.1))
    (htype : Template.listTypeOf (Legacy.normalize Template.policyListHints o.definition) =
      .ok form.type)
    (hform : form ∈ Community.forms) {before after : List (List (String × Json))}
    {row : List (String × Json)} (hentries : o.entries = before ++ row :: after) {s : String}
    (hs : Legacy.contentAt? row "community" = some (.str s)) (id : Uuid) (c : Context) :
    (form.Admits (Text.trim s) ↔ WellFormed form.type (Text.trim s)) ∧
    ((∃ p, convert o id c = .ok p) ↔ WellFormed form.type (Text.trim s) ∧
      ∀ other ∈ before ++ after, ValidEntry form.type other) ∧
    (∀ p, convert o id c = .ok p → p.type = form.type ∧
      (∃ items, p.data = [("entries", .items items)] ∧ items.length = o.entries.length ∧
        items[before.length]? = some [(form.leaf, .text (Text.trim s))]) ∧
      p.Sends (communityPlace form before.length) (.text (Text.trim s))) ∧
    (¬ WellFormed form.type (Text.trim s) → (∀ other ∈ before, ValidEntry form.type other) →
      convert o id c = .error (communityError form.type (Text.trim s))) := by
  have hvalid := Template.validEntry_of_text hform hs
  have hne : o.entries ≠ [] := by
    rw [hentries]
    exact List.append_ne_nil_of_right_ne_nil before (List.cons_ne_nil row after)
  refine ⟨Community.admits_iff hform _, ?_, fun p hp => ?_, fun hinvalid hbefore => ?_⟩
  · rw [convert_list_ok_iff hkind htype hne, hentries, List.forall_mem_append,
      List.forall_mem_cons, List.forall_mem_append, hvalid]
    exact and_left_comm
  · obtain ⟨hsame, hlists⟩ := lists_of_convert hkind htype hne hp
    have hrow : o.entries[before.length]? = some row := by
      rw [hentries, List.getElem?_append_right (Nat.le_refl _), Nat.sub_self]
      rfl
    obtain ⟨items, hdata, hlength, hitem⟩ := item_of_text hform hlists hrow hs
    have hplace := at?_communityPlace hitem
    rw [← hdata] at hplace
    exact ⟨hsame, ⟨items, hdata, hlength, hitem⟩, Parcel.sends_fixed hplace⟩
  · obtain ⟨e, herror, hrefused⟩ :=
      refused_of_convert hkind htype hentries hbefore (mt hvalid.mp hinvalid) id c
    rw [herror, Template.refused_of_text hform hs hrefused]

/-- An entry of a list of communities. -/
def communityEntry (text : String) : List (String × Json) := [("community", .str text)]

/-- A list of an extended community and another text. -/
def extendedList (text : String) : LegacyObject :=
  objectOf "extCommunity" [("type", .str "extCommunity"),
    ("entries", .arr [.obj (communityEntry "rt 65000:1"), .obj (communityEntry text)])]

/-- The middle of an extended community may have colons, and blanks around it are no part of it;
    one inside is refused. -/
theorem convert_communities_colons :
    let id := generatedId .policyList "x"
    (∃ p, convert (extendedList " soo fe80::1:7\n") id ⟨[], []⟩ = .ok p ∧
      p.Sends (communityPlace Community.extendedForm 1) (.text "soo fe80::1:7")) ∧
    convert (extendedList "rt 65000: 1") id ⟨[], []⟩ =
      .error (.unsupported "community" "'rt 65000: 1' is not an extended community") := by
  intro id
  have hform : Community.extendedForm ∈ Community.forms :=
    List.mem_cons_of_mem _ List.mem_cons_self
  have hextended : ∀ {s : String}, Community.isExtended s = true ↔ WellFormed .extCommunity s :=
    Template.isWellFormed_iff .extCommunity _
  have hfirst : ∀ other ∈ [communityEntry "rt 65000:1"], ValidEntry .extCommunity other := by
    have hs : Legacy.contentAt? (communityEntry "rt 65000:1") "community" =
        some (.str "rt 65000:1") := by
      decide +kernel
    have hvalid := (Template.validEntry_of_text hform hs).mpr (hextended.mp (by decide +kernel))
    exact List.forall_mem_singleton.mpr hvalid
  constructor
  · have hentries : (extendedList " soo fe80::1:7\n").entries =
        [communityEntry "rt 65000:1"] ++ communityEntry " soo fe80::1:7\n" :: [] := by
      decide +kernel
    have hs : Legacy.contentAt? (communityEntry " soo fe80::1:7\n") "community" =
        some (.str " soo fe80::1:7\n") := by
      decide +kernel
    have htrim : Text.trim " soo fe80::1:7\n" = "soo fe80::1:7" := by decide +kernel
    obtain ⟨-, hconverts, hcarries, -⟩ := convert_communities (by decide) (by decide +kernel) hform
      hentries hs id ⟨[], []⟩
    rw [htrim] at hconverts hcarries
    obtain ⟨p, hp⟩ := hconverts.mpr ⟨hextended.mp (by decide +kernel), hfirst⟩
    obtain ⟨-, -, hsent⟩ := hcarries p hp
    exact ⟨p, hp, hsent⟩
  · have hentries : (extendedList "rt 65000: 1").entries =
        [communityEntry "rt 65000:1"] ++ communityEntry "rt 65000: 1" :: [] := by
      decide +kernel
    have hs : Legacy.contentAt? (communityEntry "rt 65000: 1") "community" =
        some (.str "rt 65000: 1") := by
      decide +kernel
    have htrim : Text.trim "rt 65000: 1" = "rt 65000: 1" := by decide +kernel
    obtain ⟨-, -, -, hrefuses⟩ := convert_communities (by decide) (by decide +kernel) hform
      hentries hs id ⟨[], []⟩
    rw [htrim] at hrefuses
    exact hrefuses (mt hextended.mpr (by decide +kernel)) hfirst

end ProfileMigration
