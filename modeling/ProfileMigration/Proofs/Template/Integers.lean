/-
  ProfileMigration.Proofs.Template.Integers

  Integers in the definitions of converted objects:

    KeepsInteger            -- an integer that is configured is carried over exactly
    BoundsInteger           -- but numbers past the signed range become the end of it
    KeepsIntegers           -- every integer that is read has been carried over
    convert_keeps_integers  -- and so it is, and spellings of one integer convert alike
    convert_bounds_number   -- a number past the range, and the same as text
-/
import ProfileMigration.Proofs.Legacy.Integers
import ProfileMigration.Proofs.Template.Contents
import ProfileMigration.Proofs.Template.Unsetting

namespace ProfileMigration

namespace Template

/-! ## Carrying integers over -/

/-- The integer at a path, if there is one, is carried over exactly. -/
def KeepsInteger (source : String) (row : List (String × Json)) (made : TypedValue → Prop) : Prop :=
  ∀ j n, Legacy.contentAt? row source = some j → Legacy.integer? j = some n →
    ∃ i : Int64, i.toInt = n ∧ made (.int i)

/-- The same for texts, and for numbers of sixty-four bits with a sign; a number past these becomes
    the largest of them. -/
def BoundsInteger (source : String) (row : List (String × Json)) (made : TypedValue → Prop) :
    Prop :=
  ∀ j n, Legacy.contentAt? row source = some j → Legacy.integer? j = some n →
    (n ≤ Int64.maxValue.toInt ∨ j.text?.isSome → ∃ i : Int64, i.toInt = n ∧ made (.int i)) ∧
    (Int64.maxValue.toInt < n → j.text? = none → made (.int Int64.maxValue))

variable {hints : Hints} {source : String} {row : List (String × Json)} {made : TypedValue → Prop}

/-- What is made of an integer is what its literal is read as. -/
theorem CarriedFrom.integer {j : Json} {n : Int} (h : CarriedFrom hints .integer source row made)
    (hkind : hints.kind? source = some .integer ∨ hints.kind? source = some .text)
    (hcontent : Legacy.contentAt? row source = some j) (hj : Legacy.integer? j = some n) :
    ∃ i, (Legacy.leaf hints source j).toInt64? = some i ∧ made (.int i) := by
  have hvalue : (Legacy.normalizeMembers hints row).value? source =
      some (.fixed (Legacy.leaf hints source j)) :=
    Legacy.value?_of_contentAt? hcontent fun key => Legacy.normalizeField_integer hj
  have hconfigured : configured? (Legacy.normalizeMembers hints row) source =
      some (.fixed (Legacy.leaf hints source j)) := by
    have hsays : saysNothing (.fixed (Legacy.leaf hints source j)) = false := by
      have hne := Legacy.leaf_ne_empty hkind hj
      cases hleaf : Legacy.leaf hints source j with
      | str s =>
        rw [hleaf] at hne
        exact decide_eq_false fun hs => hne (congrArg Literal.str hs)
      | bool | int | float | address | network | list | raw => rfl
    rw [configured?, hvalue, Option.filter_some, hsays]
    rfl
  obtain ⟨w, hw, hmade⟩ := h _ hconfigured
  rw [Carriage.carry, toInt, coerceWith] at hw
  cases hread : (Legacy.leaf hints source j).toInt64? with
  | none =>
    rw [hread] at hw
    cases hw
  | some i =>
    rw [hread] at hw
    refine ⟨i, rfl, ?_⟩
    rwa [← Except.ok.inj hw] at hmade

theorem CarriedFrom.boundsInteger (h : CarriedFrom hints .integer source row made)
    (hkind : hints.kind? source = some .integer) : BoundsInteger source row made := by
  intro j n hcontent hj
  obtain ⟨i, hi, hmade⟩ := h.integer (.inl hkind) hcontent hj
  refine ⟨fun hn => ⟨i, ?_, hmade⟩, fun hn htext => ?_⟩
  · rw [Legacy.toInt64?_leaf hkind hj hn] at hi
    exact toInt_of_int64? hi
  · rw [Legacy.toInt64?_leaf_large hkind hj hn htext] at hi
    rwa [Option.some.inj hi]

theorem CarriedFrom.keepsInteger (h : CarriedFrom hints .integer source row made)
    (hkind : hints.kind? source = some .text) : KeepsInteger source row made := by
  intro j n hcontent hj
  obtain ⟨i, hi, hmade⟩ := h.integer (.inr hkind) hcontent hj
  rw [Legacy.toInt64?_leaf_text hkind hj] at hi
  exact ⟨i, toInt_of_int64? hi, hmade⟩

/-- Every integer is declared as one, and those that go into slots as text. -/
theorem integers_declared : ∀ t ∈ all, ∀ kind ∈ t.kinds,
    (∀ s ∈ sites kind, s.how = .integer → t.hints.kind? s.source = some .integer) ∧
    (∀ s ∈ slotSites kind, s.how = .integer → t.hints.kind? s.source = some .text) ∧
    t.hints.kind? "vipType" = none := by
  decide +kernel

end Template

/-! ## Converted objects -/

/-- Every integer that a definition gives for a value that is read as one has been carried over,
    exactly unless it is a number past the signed range. Those for slots of entries are exact; what
    is not the last one for its slot has been read, but nothing is left of it. -/
structure LegacyObject.KeepsIntegers (o : LegacyObject) (hints : Hints) (data : FieldMap) :
    Prop where
  bounded : ∀ s ∈ Template.sites o.kind, s.how = .integer →
    s.Each hints (Template.BoundsInteger s.source) o.root data
  exact : ∀ s ∈ Template.slotSites o.kind, s.how = .integer →
    s.Each hints (Template.KeepsInteger s.source) o.root data

/-- A converted object has kept the integers of its definition, as numbers and as texts, so that
    none that is a text was past the range; a number that is becomes the end of the range instead.
    And spelling integers in another way changes nothing about what a definition is converted to,
    as long as those that are declared as integers are of the range. -/
theorem convert_keeps_integers {o : LegacyObject} {id : Uuid} {c : Context} {t : Template}
    (ht : template? o.kind = some t) :
    (∀ p, convert o id c = .ok p → o.KeepsIntegers t.hints p.data) ∧
    ∀ members members', o.definition = .obj members →
      Legacy.RewritesMembers (Legacy.Respells t.hints) members members' →
      convert { o with definition := .obj members' } id c = convert o id c := by
  have hkind : o.kind ∈ t.kinds := by
    have hfound := List.find?_some ht
    exact List.contains_iff_mem.mp hfound
  obtain ⟨hsites, hslots, hplain⟩ := Template.integers_declared t (template?_mem ht) o.kind hkind
  refine ⟨fun p h => ?_, fun members members' hdefinition h => ?_⟩
  · have hcarries := convert_carries ht h
    refine ⟨fun s hs hinteger => ?_, fun s hs hinteger => ?_⟩
    · refine (hcarries.sites s hs).each fun row made hrow => ?_
      rw [hinteger] at hrow
      exact hrow.boundsInteger (hsites s hs hinteger)
    · refine (hcarries.slots s hs).each fun row made hrow => ?_
      rw [hinteger] at hrow
      exact hrow.keepsInteger (hslots s hs hinteger)
  · refine convert_congr_of_kind fun t' ht' => ?_
    obtain rfl := Option.some.inj (ht.symm.trans ht')
    have hfields : Legacy.normalize t.hints (.obj members') =
        Legacy.normalize t.hints (.obj members) :=
      Legacy.normalizeMembers_rewrites (Legacy.silent_respells hplain) h
    rw [hdefinition, hfields]

/-- A protocol with its own number as one and that of a neighbour as text. -/
def numberedMembers : List (String × Json) :=
  [("as-num", .ofInt64 4200000000), ("neighbor", .arr [
    .obj [("address", .str "10.0.0.1"), ("remote-as", .str " 65001 ")]])]

/-- The same, spelled the other way round. -/
def respelledMembers : List (String × Json) :=
  [("as-num", .str "+4200000000"), ("neighbor", .arr [
    .obj [("address", .str "10.0.0.1"), ("remote-as", .ofInt64 65001)]])]

/-- Both convert to the same numbers. -/
theorem convert_keeps_integers_bgp :
    ∃ p, convert (objectOf "cisco_bgp" numberedMembers) (generatedId .featureTemplate "x")
        ⟨[], []⟩ = .ok p ∧
      (objectOf "cisco_bgp" numberedMembers).KeepsIntegers Template.bgpHints p.data ∧
      p.data.value? "asNum" = some (.int 4200000000) ∧
      (p.data.items "neighbor").map (·.value? "remoteAs") = [some (.int 65001)] ∧
      convert (objectOf "cisco_bgp" respelledMembers) (generatedId .featureTemplate "x")
        ⟨[], []⟩ = .ok p := by
  have hnumbers : (convert (objectOf "cisco_bgp" numberedMembers) (generatedId .featureTemplate "x")
      ⟨[], []⟩).map (fun p => (p.data.value? "asNum",
        (p.data.items "neighbor").map (·.value? "remoteAs"))) =
        .ok (some (.int 4200000000), [some (.int 65001)]) := by
    decide +kernel
  obtain ⟨p, hp, hvalues⟩ := map_eq_ok hnumbers
  obtain ⟨hown, hremote⟩ := Prod.mk.inj hvalues
  have hrespelled : Legacy.RewritesMembers (Legacy.Respells Template.bgpHints) numberedMembers
      respelledMembers := by
    have hown : Legacy.Respells Template.bgpHints "as-num" (.ofInt64 4200000000)
        (.str "+4200000000") :=
      ⟨4200000000, by decide +kernel, by decide +kernel, .inl ⟨by decide +kernel, 4200000000, rfl⟩⟩
    have hremote : Legacy.Respells Template.bgpHints "remote-as" (.str " 65001 ")
        (.ofInt64 65001) :=
      ⟨65001, by decide +kernel, by decide +kernel, .inl ⟨by decide +kernel, 65001, rfl⟩⟩
    exact .cons (.step (.same _ _) hown) (.cons (.list (.cons (.cons (.same _ _)
      (.cons (.step (.same _ _) hremote) .nil)) .nil)) .nil)
  obtain ⟨hkeeps, hsame⟩ := @convert_keeps_integers (objectOf "cisco_bgp" numberedMembers)
    (generatedId .featureTemplate "x") ⟨[], []⟩
    (Template.referring "cisco_bgp" Template.bgpHints .bgp Template.bgp) rfl
  exact ⟨p, hp, hkeeps p hp, hown, hremote, (hsame _ _ rfl hrespelled).trans hp⟩

/-- The largest integer that a definition holds exactly. -/
def largestNumber : ExactInt := ⟨UInt64.size - 1, by decide, by decide⟩

/-- As a number it is converted to another integer, and as text it is refused. -/
theorem convert_bounds_number :
    Legacy.integer? (.num (.int largestNumber)) = Legacy.integer? (.str "18446744073709551615") ∧
    (convert (objectOf "cisco_bgp" [("as-num", .num (.int largestNumber))])
        (generatedId .featureTemplate "x") ⟨[], []⟩).map (·.data.value? "asNum") =
      .ok (some (.int 9223372036854775807)) ∧
    convert (objectOf "cisco_bgp" [("as-num", .str "18446744073709551615")])
        (generatedId .featureTemplate "x") ⟨[], []⟩ =
      .error (.unsupported "as-num" "'18446744073709551615' is not a number") := by
  decide +kernel

end ProfileMigration
