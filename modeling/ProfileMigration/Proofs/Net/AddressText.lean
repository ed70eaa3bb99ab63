/-
  ProfileMigration.Proofs.Net.AddressText

  The texts of addresses and networks:

    Net.ipv4OfText?_ipv4Text    -- a dotted address reads back from its text
    Net.eq_ipv4Text_of_ipv4OfText? -- and is written in no other way
    Net.longestZeros_zero       -- the run that a double colon stands for is one of zeros
    Net.ipv6OfText?_ipv6Text    -- an address of eight groups reads back from its text
    IpAddress.ofText?_text      -- so does an address of either family
    Network.ofText?_text        -- and a network
    IpAddress.ofText?_text_network -- the text of a network is not the text of an address

  The two dialects of address text agree on everything that is written.
-/
import Mathlib.Algebra.Group.Nat.Defs
import ProfileMigration.Net.Network
import ProfileMigration.Proofs.Json.Numeral
import ProfileMigration.Proofs.Sequence.Traverse
import ProfileMigration.Proofs.Text.Pieces

namespace ProfileMigration

namespace Net

variable (rules : AddressRules)

/-! ## Dotted addresses -/

/-- Four octets between points. -/
def dotted (a b c d : Nat) : List Char :=
  List.intercalate ['.'] ([a, b, c, d].map (Nat.toDigits 10))

theorem not_mem_toDigits {c : Char} (hc : c.isDigit = false) (n : Nat) :
    c ∉ Nat.toDigits 10 n := fun h =>
  absurd (Nat.isDigit_of_mem_toDigits (by decide) (by decide) h) (by rw [hc]; decide)

/-- An octet reads back from its digits, which have no leading zero. -/
theorem octet?_toDigits {n : Nat} (h : n < 256) : octet? rules (Nat.toDigits 10 n) = some n := by
  have hlength : (Nat.toDigits 10 n).length ≤ 3 :=
    (Nat.length_toDigits_le_iff (by decide) (by decide)).mpr (by omega)
  have hzero := Decimal.no_leading_zero n
  have hpos : 0 < (Nat.toDigits 10 n).length := List.length_pos_iff.mpr Nat.toDigits_ne_nil
  have hhead : (Nat.toDigits 10 n).length = 1 ∨ (Nat.toDigits 10 n).head? ≠ some '0' := by
    by_cases hone : (Nat.toDigits 10 n).length = 1
    · exact .inl hone
    · exact .inr fun h0 => hzero ⟨h0, by omega⟩
  rw [octet?, Decimal.digitsValue_toDigits]
  exact if_pos ⟨Nat.toDigits_ne_nil, Decimal.all_isDigit_toDigits n, hlength, h, .inr hhead⟩

theorem octets?_dotted {a b c d : Nat} (ha : a < 256) (hb : b < 256) (hc : c < 256)
    (hd : d < 256) : octets? rules (dotted a b c d) = some (a, b, c, d) := by
  have hcut : ∀ piece ∈ [a, b, c, d].map (Nat.toDigits 10), '.' ∉ piece := by
    intro piece hpiece
    obtain ⟨n, -, rfl⟩ := List.mem_map.mp hpiece
    exact not_mem_toDigits rfl n
  have hall : ∀ n ∈ [a, b, c, d], n < 256 := by simp [ha, hb, hc, hd]
  have hread : ([a, b, c, d].map (Nat.toDigits 10)).mapM (octet? rules) = some [a, b, c, d] :=
    mapM_map_eq_pure_self fun n hn => octet?_toDigits rules (hall n hn)
  have hne : [a, b, c, d].map (Nat.toDigits 10) ≠ [] := List.cons_ne_nil _ _
  rw [octets?, dotted, Text.splitBy_intercalate hne hcut, hread]

theorem isDigit_or_of_mem_dotted {a b c d : Nat} {x : Char} (h : x ∈ dotted a b c d) :
    x.isDigit = true ∨ x = '.' := by
  have hdigit : ∀ {n : Nat}, x ∈ Nat.toDigits 10 n → x.isDigit = true :=
    fun hx => Nat.isDigit_of_mem_toDigits (by decide) (by decide) hx
  simp only [dotted, List.map_cons, List.map_nil, List.intercalate_cons_cons,
    List.intercalate_singleton, List.mem_append, List.mem_singleton] at h
  rcases h with (hx | hx) | (hx | hx) | (hx | hx) | hx
  · exact .inl (hdigit hx)
  · exact .inr hx
  · exact .inl (hdigit hx)
  · exact .inr hx
  · exact .inl (hdigit hx)
  · exact .inr hx
  · exact .inl (hdigit hx)

theorem toList_ipv4Text (a : BitVec 32) :
    (ipv4Text a).toList = dotted (a.toNat >>> 24) (a.toNat >>> 16 % 256) (a.toNat >>> 8 % 256)
      (a.toNat % 256) := by
  have hpoint : (toString ".").toList = ['.'] := rfl
  simp [ipv4Text, dotted, List.intercalate_cons_cons, hpoint]

theorem octets?_ipv4Text (a : BitVec 32) :
    octets? rules (ipv4Text a).toList = some (a.toNat >>> 24, a.toNat >>> 16 % 256,
      a.toNat >>> 8 % 256, a.toNat % 256) := by
  have hlt := a.isLt
  have hfirst : a.toNat >>> 24 < 256 := by
    rw [Nat.shiftRight_eq_div_pow]
    omega
  rw [toList_ipv4Text]
  exact octets?_dotted rules hfirst (Nat.mod_lt _ (by decide)) (Nat.mod_lt _ (by decide))
    (Nat.mod_lt _ (by decide))

/-- A dotted address reads back from its text. -/
theorem ipv4OfText?_ipv4Text (a : BitVec 32) :
    ipv4OfText? rules (ipv4Text a).toList = some a := by
  have hlt := a.isLt
  rw [ipv4OfText?, octets?_ipv4Text, Option.map_some]
  congr 1
  apply BitVec.eq_of_toNat_eq
  simp only [BitVec.toNat_ofNat, Nat.shiftRight_eq_div_pow]
  omega

/-- On its own, an octet is written in one way only. -/
theorem octet?_strict {cs : List Char} {n : Nat} (h : octet? .strict cs = some n) :
    n < 256 ∧ cs = Nat.toDigits 10 n := by
  rw [octet?] at h
  obtain ⟨⟨hne, hall, -, hlt, hzero⟩, hvalue⟩ := Option.ite_none_right_eq_some.mp h
  obtain rfl := Option.some.inj hvalue
  have hdigits : ∀ c ∈ cs, c.isDigit = true := List.all_eq_true.mp hall
  refine ⟨hlt, ?_⟩
  obtain ⟨c, rest, rfl⟩ := List.exists_cons_of_ne_nil hne
  by_cases hc : c = '0'
  · -- A zero is all there is
    subst hc
    rcases hzero with hrules | hlength | hhead
    · cases hrules
    · rw [List.length_cons, Nat.add_eq_right, List.length_eq_zero_iff] at hlength
      rw [hlength]
      rfl
    · exact absurd rfl hhead
  · exact (Decimal.toDigits_digitsValue hdigits hc).symm

/-- So is a dotted address. -/
theorem eq_ipv4Text_of_ipv4OfText? {cs : List Char} {a : BitVec 32}
    (h : ipv4OfText? .strict cs = some a) : cs = (ipv4Text a).toList := by
  rw [ipv4OfText?, Option.map_eq_some_iff] at h
  obtain ⟨⟨x, y, z, w⟩, hoctets, rfl⟩ := h
  have hpieces : (Text.splitBy (· = '.') cs).mapM (octet? .strict) = some [x, y, z, w] := by
    rw [octets?] at hoctets
    split at hoctets
    · rename_i hread
      obtain ⟨rfl, rfl, rfl, rfl⟩ := Option.some.inj hoctets
      exact hread
    · cases hoctets
  have hlt : ∀ n ∈ [x, y, z, w], n < 256 := by
    intro n hn
    obtain ⟨piece, -, hpiece⟩ := exists_of_mem_mapM hpieces n hn
    exact (octet?_strict hpiece).1
  have hcs : cs = dotted x y z w := by
    rw [dotted, ← eq_map_of_mapM_eq_some (fun _ _ hread => (octet?_strict hread).2) hpieces,
      Text.intercalate_splitBy]
  simp only [List.forall_mem_cons] at hlt
  obtain ⟨hx, hy, hz, hw, -⟩ := hlt
  rw [hcs, toList_ipv4Text]
  simp only [BitVec.toNat_ofNat, Nat.shiftRight_eq_div_pow]
  congr 1 <;> omega

/-! ## Groups -/

/-- A group reads back from its digits. -/
theorem hexValue?_digitChar {n : Nat} (h : n < 16) : Text.hexValue? n.digitChar = some n := by
  have all : ∀ m : Fin 16, Text.hexValue? (Nat.digitChar m) = some m.val := by decide
  exact all ⟨n, h⟩

theorem mapM_hexValue?_toDigits (n : Nat) :
    ∃ values, (Nat.toDigits 16 n).mapM Text.hexValue? = some values ∧
      values.foldl (fun n d => 16 * n + d) 0 = n := by
  induction n using Nat.strongRecOn with
  | ind n ih =>
    rw [Nat.toDigits_eq_if (by decide)]
    split
    · rename_i hlt
      refine ⟨[n], ?_, by simp⟩
      rw [List.mapM_cons, hexValue?_digitChar hlt]
      rfl
    · obtain ⟨values, hvalues, hfold⟩ := ih (n / 16) (by omega)
      refine ⟨values ++ [n % 16], ?_, ?_⟩
      · rw [List.mapM_append, hvalues, List.mapM_cons, hexValue?_digitChar (by omega)]
        rfl
      · rw [List.foldl_append, hfold, List.foldl_cons, List.foldl_nil]
        omega

theorem group?_toDigits {n : Nat} (h : n < 65536) : group? (Nat.toDigits 16 n) = some n := by
  have hlength : (Nat.toDigits 16 n).length ≤ 4 :=
    (Nat.length_toDigits_le_iff (by decide) (by decide)).mpr (by omega)
  obtain ⟨values, hvalues, hfold⟩ := mapM_hexValue?_toDigits n
  rw [group?, if_pos ⟨Nat.toDigits_ne_nil, hlength⟩, hvalues, Option.map_some, hfold]

theorem not_mem_toDigits_hex {c : Char} (hc : Text.hexValue? c = none) (n : Nat) :
    c ∉ Nat.toDigits 16 n := by
  intro hmem
  obtain ⟨values, hvalues, -⟩ := mapM_hexValue?_toDigits n
  have hsome := isSome_of_mapM_eq_some hvalues c hmem
  rw [hc] at hsome
  cases hsome

/-- Groups between colons. -/
def joined (groups : List Nat) : List Char :=
  List.intercalate [':'] (groups.map (Nat.toDigits 16))

theorem toList_groupsText (groups : List Nat) : (groupsText groups).toList = joined groups := by
  rw [groupsText, String.toList_intercalate, joined, List.map_map]
  congr 1
  apply List.map_congr_left
  intro g _
  simp

theorem joined_cons_cons (g g' : Nat) (rest : List Nat) :
    joined (g :: g' :: rest) = Nat.toDigits 16 g ++ ':' :: joined (g' :: rest) := by
  simp [joined, List.intercalate_cons_cons]

theorem joined_eq_nil_iff {groups : List Nat} : joined groups = [] ↔ groups = [] := by
  cases groups with
  | nil => simp [joined]
  | cons g rest =>
    cases rest with
    | nil => simp [joined]
    | cons g' more => simp [joined_cons_cons]

theorem pieces_joined (groups : List Nat) :
    pieces (joined groups) = groups.map (Nat.toDigits 16) := by
  rw [pieces]
  split
  · rename_i hnil
    rw [joined_eq_nil_iff.mp hnil, List.map_nil]
  · rename_i hne
    refine Text.splitBy_intercalate (fun hnil => hne ?_) ?_
    · rw [joined_eq_nil_iff, List.map_eq_nil_iff.mp hnil]
    · intro piece hpiece
      obtain ⟨n, -, rfl⟩ := List.mem_map.mp hpiece
      exact not_mem_toDigits_hex rfl n

/-- What has no point is no dotted address. -/
theorem octets?_eq_none {cs : List Char} (h : '.' ∉ cs) : octets? rules cs = none := by
  have huncut : ∀ c ∈ cs, decide (c = '.') = false :=
    fun c hc => decide_eq_false fun hdot => h (hdot ▸ hc)
  rw [octets?, Text.splitBy_eq_singleton huncut, List.mapM_cons]
  cases octet? rules cs with
  | none => rfl
  | some n => rfl

theorem groups?_map_toDigits {groups : List Nat} (h : ∀ g ∈ groups, g < 65536) :
    groups? rules (groups.map (Nat.toDigits 16)) = some groups := by
  induction groups with
  | nil => rfl
  | cons g rest ih =>
    obtain ⟨hg, hrest⟩ := List.forall_mem_cons.mp h
    cases rest with
    | nil =>
      rw [List.map_cons, List.map_nil, groups?,
        octets?_eq_none rules (not_mem_toDigits_hex rfl g), group?_toDigits hg]
      rfl
    | cons g' more =>
      rw [List.map_cons, List.map_cons, groups?, group?_toDigits hg, ← List.map_cons, ih hrest]
      · rfl
      · exact fun hnil => List.cons_ne_nil _ _ hnil

/-! ## The double colon -/

/-- A part without colons is passed over. -/
theorem cutAtGap_append {part : List Char} (h : ':' ∉ part) (cs : List Char) :
    cutAtGap (part ++ cs) = (cutAtGap cs).map fun (before, after) => (part ++ before, after) := by
  induction part with
  | nil =>
    rw [List.nil_append]
    cases cutAtGap cs <;> rfl
  | cons c rest ih =>
    rw [List.mem_cons, not_or] at h
    rw [List.cons_append, cutAtGap, ih h.2]
    · cases cutAtGap cs <;> rfl
    · rintro more rfl
      exact fun _ => h.1 rfl

/-- So is a single colon. -/
theorem cutAtGap_colon {c : Char} (hc : c ≠ ':') (cs : List Char) :
    cutAtGap (':' :: c :: cs) =
      (cutAtGap (c :: cs)).map fun (before, after) => (':' :: before, after) := by
  rw [cutAtGap]
  intro rest _ hrest
  exact hc (List.cons.inj hrest).1

theorem joined_append_head (g : Nat) (rest : List Nat) (cs : List Char) :
    ∃ c more, joined (g :: rest) ++ cs = c :: more ∧ c ≠ ':' := by
  have hcolon := not_mem_toDigits_hex (c := ':') rfl g
  cases hdigits : Nat.toDigits 16 g with
  | nil => exact absurd hdigits Nat.toDigits_ne_nil
  | cons c more =>
    have hc : c ≠ ':' := by
      rintro rfl
      exact hcolon (by rw [hdigits]; exact List.mem_cons_self)
    cases rest with
    | nil => exact ⟨c, more ++ cs, by simp [joined, hdigits], hc⟩
    | cons g' rest => exact ⟨c, _, by rw [joined_cons_cons, hdigits]; rfl, hc⟩

/-- Groups have no double colon between them, so the first one comes after them. -/
theorem cutAtGap_joined (groups : List Nat) (cs : List Char) :
    cutAtGap (joined groups ++ cs) =
      (cutAtGap cs).map fun (before, after) => (joined groups ++ before, after) := by
  induction groups with
  | nil => exact cutAtGap_append List.not_mem_nil cs
  | cons g rest ih =>
    have hcolon := not_mem_toDigits_hex (c := ':') rfl g
    cases rest with
    | nil =>
      have hone : joined [g] = Nat.toDigits 16 g := by simp [joined]
      rw [hone]
      exact cutAtGap_append hcolon cs
    | cons g' more =>
      obtain ⟨c, tail, htail, hc⟩ := joined_append_head g' more cs
      rw [joined_cons_cons, List.append_assoc, List.cons_append, cutAtGap_append hcolon, htail,
        cutAtGap_colon hc, ← htail, ih]
      cases cutAtGap cs <;> simp

/-! ## Runs of zeros -/

theorem take_zerosAtHead (groups : List Nat) :
    groups.take (zerosAtHead groups) = List.replicate (zerosAtHead groups) 0 := by
  have htake : groups.take (zerosAtHead groups) = groups.takeWhile (· = 0) :=
    (List.prefix_iff_eq_take.mp (List.takeWhile_prefix _)).symm
  rw [htake, List.eq_replicate_iff]
  refine ⟨rfl, fun g hg => ?_⟩
  have hzero := List.mem_takeWhile_imp hg
  exact of_decide_eq_true hzero

/-- The run that is found is one of zeros. -/
theorem longestZeros_zero (groups : List Nat) :
    (groups.drop (longestZeros groups).1).take (longestZeros groups).2 =
      List.replicate (longestZeros groups).2 0 := by
  rw [longestZeros]
  refine List.foldlRecOn (motive := fun best : Nat × Nat =>
    (groups.drop best.1).take best.2 = List.replicate best.2 0) _ _ rfl ?_
  intro best hbest i _
  dsimp only
  split
  · exact take_zerosAtHead (groups.drop i)
  · exact hbest

theorem eq_around_longestZeros (groups : List Nat) :
    groups.take (longestZeros groups).1 ++ List.replicate (longestZeros groups).2 0 ++
      groups.drop ((longestZeros groups).1 + (longestZeros groups).2) = groups := by
  rw [← longestZeros_zero, ← List.drop_drop, List.append_assoc, List.take_append_drop,
    List.take_append_drop]

/-! ## Addresses of eight groups -/

theorem lt_of_mem_ipv6Groups {a : BitVec 128} {g : Nat} (h : g ∈ ipv6Groups a) : g < 65536 := by
  obtain ⟨i, -, rfl⟩ := List.mem_map.mp h
  exact Nat.mod_lt _ (by decide)

theorem length_ipv6Groups (a : BitVec 128) : (ipv6Groups a).length = 8 := rfl

theorem ipv6OfGroups_ipv6Groups (a : BitVec 128) : ipv6OfGroups (ipv6Groups a) = a := by
  have hlt := a.isLt
  have hgroups : ipv6Groups a = [a.toNat >>> 112 % 65536, a.toNat >>> 96 % 65536,
      a.toNat >>> 80 % 65536, a.toNat >>> 64 % 65536, a.toNat >>> 48 % 65536,
      a.toNat >>> 32 % 65536, a.toNat >>> 16 % 65536, a.toNat >>> 0 % 65536] := rfl
  apply BitVec.eq_of_toNat_eq
  rw [ipv6OfGroups, hgroups]
  simp only [List.foldl_cons, List.foldl_nil, BitVec.toNat_ofNat, Nat.shiftRight_eq_div_pow]
  omega

theorem ipv6OfText?_joined {groups : List Nat} (h : ∀ g ∈ groups, g < 65536)
    (hlength : groups.length = 8) :
    ipv6OfText? rules (joined groups) = some (ipv6OfGroups groups) := by
  have hgap : cutAtGap (joined groups) = none := by
    have h := cutAtGap_joined groups []
    rwa [List.append_nil] at h
  rw [ipv6OfText?, hgap]
  dsimp only
  rw [pieces_joined, groups?_map_toDigits rules h]
  exact if_pos hlength

theorem ipv6OfText?_gap {front back : List Nat} {missing : Nat}
    (hfront : ∀ g ∈ front, g < 65536) (hback : ∀ g ∈ back, g < 65536)
    (hlength : front.length + missing + back.length = 8) (hmissing : 0 < missing) :
    ipv6OfText? rules (joined front ++ ':' :: ':' :: joined back) =
      some (ipv6OfGroups (front ++ List.replicate missing 0 ++ back)) := by
  have hgap : cutAtGap (joined front ++ ':' :: ':' :: joined back) =
      some (joined front, joined back) := by
    rw [cutAtGap_joined, cutAtGap, Option.map_some]
    dsimp only
    rw [List.append_nil]
  have hread : (front.map (Nat.toDigits 16)).mapM group? = some front :=
    mapM_map_eq_pure_self fun g hg => group?_toDigits (hfront g hg)
  have hcount : 8 - (front.length + back.length) = missing := by omega
  rw [ipv6OfText?, hgap]
  dsimp only
  rw [pieces_joined, hread, pieces_joined, groups?_map_toDigits rules hback]
  simp only [Option.bind_eq_bind, Option.bind_some, hcount]
  exact if_pos ⟨by omega, by omega, .inr hmissing⟩

/-- The pieces of an embedded dotted address. -/
def mappedPieces (b : BitVec 32) : List (List Char) :=
  [['f', 'f', 'f', 'f'], (ipv4Text b).toList]

theorem pieces_mappedPieces (b : BitVec 32) :
    pieces (List.intercalate [':'] (mappedPieces b)) = mappedPieces b := by
  have hcut : ∀ piece ∈ mappedPieces b, ':' ∉ piece := by
    refine List.forall_mem_cons.mpr ⟨by decide, List.forall_mem_singleton.mpr fun hmem => ?_⟩
    rw [toList_ipv4Text] at hmem
    rcases isDigit_or_of_mem_dotted hmem with h | h <;> exact absurd h (by decide)
  rw [pieces, if_neg (by simp [mappedPieces, List.intercalate_cons_cons])]
  exact Text.splitBy_intercalate (List.cons_ne_nil _ _) hcut

/-- The octets make two groups. -/
theorem groups?_mappedPieces (b : BitVec 32) :
    groups? rules (mappedPieces b) =
      some [0xffff, b.toNat >>> 24 * 256 + b.toNat >>> 16 % 256,
        b.toNat >>> 8 % 256 * 256 + b.toNat % 256] := by
  rw [mappedPieces, groups?, groups?, octets?_ipv4Text]
  · rfl
  · exact fun hnil => List.cons_ne_nil _ _ hnil

/-- An embedded dotted address is one of eight groups, of which the first five are zeros. -/
theorem ipv6OfText?_mapped (b : BitVec 32) :
    ipv6OfText? rules ("::ffff:" ++ ipv4Text b).toList =
      some (BitVec.ofNat 128 (0xffff * 2 ^ 32 + b.toNat)) := by
  have hlt := b.isLt
  have htext : ("::ffff:" ++ ipv4Text b).toList =
      ':' :: ':' :: List.intercalate [':'] (mappedPieces b) := by
    rw [String.toList_append, mappedPieces, List.intercalate_cons_cons,
      List.intercalate_singleton]
    rfl
  rw [htext, ipv6OfText?, cutAtGap]
  dsimp only
  rw [pieces_mappedPieces, groups?_mappedPieces]
  have hvalue : ([] ++ List.replicate 5 0 ++ [0xffff, b.toNat >>> 24 * 256 +
      b.toNat >>> 16 % 256, b.toNat >>> 8 % 256 * 256 + b.toNat % 256]).foldl
        (fun n g => 65536 * n + g) 0 = 0xffff * 2 ^ 32 + b.toNat := by
    simp only [List.replicate, List.nil_append, List.cons_append, List.foldl_cons, List.foldl_nil,
      Nat.shiftRight_eq_div_pow]
    omega
  rw [← hvalue, ← ipv6OfGroups]
  exact if_pos (by simp)

/-- An address of eight groups reads back from its text. -/
theorem ipv6OfText?_ipv6Text (a : BitVec 128) :
    ipv6OfText? rules (ipv6Text a).toList = some a := by
  have hlt := a.isLt
  have hgroups : ∀ g ∈ ipv6Groups a, g < 65536 := fun g => lt_of_mem_ipv6Groups
  rw [ipv6Text]
  split
  · rename_i hmapped
    rw [ipv6OfText?_mapped]
    congr 1
    apply BitVec.eq_of_toNat_eq
    rw [Nat.shiftRight_eq_div_pow] at hmapped
    simp only [BitVec.toNat_ofNat, BitVec.toNat_setWidth]
    omega
  · dsimp only
    have haround := eq_around_longestZeros (ipv6Groups a)
    split
    · rename_i hrun
      have htext : (groupsText ((ipv6Groups a).take (longestZeros (ipv6Groups a)).1) ++ "::" ++
          groupsText ((ipv6Groups a).drop ((longestZeros (ipv6Groups a)).1 +
            (longestZeros (ipv6Groups a)).2))).toList =
          joined ((ipv6Groups a).take (longestZeros (ipv6Groups a)).1) ++ ':' :: ':' ::
            joined ((ipv6Groups a).drop ((longestZeros (ipv6Groups a)).1 +
              (longestZeros (ipv6Groups a)).2)) := by
        simp [String.toList_append, toList_groupsText]
      have hlength := congrArg List.length haround
      rw [List.length_append, List.length_append, List.length_replicate,
        length_ipv6Groups] at hlength
      rw [htext, ipv6OfText?_gap rules (fun g hg => hgroups g (List.mem_of_mem_take hg))
        (fun g hg => hgroups g (List.mem_of_mem_drop hg)) hlength (by omega), haround,
        ipv6OfGroups_ipv6Groups]
    · rw [toList_groupsText, ipv6OfText?_joined rules hgroups (length_ipv6Groups a),
        ipv6OfGroups_ipv6Groups]

/-! ## Characters of addresses -/

/-- A character that may stand in the text of an address. -/
def Plain (c : Char) : Prop := (Text.hexValue? c).isSome ∨ c = '.' ∨ c = ':'

variable {rules} {cs : List Char}

theorem isSome_hexValue?_of_isDigit {c : Char} (h : c.isDigit = true) :
    (Text.hexValue? c).isSome := by
  rw [Char.isDigit, Bool.and_eq_true, decide_eq_true_iff, decide_eq_true_iff] at h
  have hrange : '0' ≤ c ∧ c ≤ '9' := h
  rw [Text.hexValue?, if_pos hrange]
  rfl

theorem plain_of_octets? {x : Nat × Nat × Nat × Nat} (h : octets? rules cs = some x) :
    ∀ c ∈ cs, Plain c ∧ c ≠ ':' := by
  intro c hc
  have hpieces : ∃ ns, (Text.splitBy (· = '.') cs).mapM (octet? rules) = some ns := by
    rw [octets?] at h
    split at h
    · rename_i hread
      exact ⟨_, hread⟩
    · cases h
  obtain ⟨ns, hns⟩ := hpieces
  rcases Text.cut_or_mem_splitBy (· = '.') hc with hcut | ⟨piece, hpiece, hmem⟩
  · obtain rfl := of_decide_eq_true hcut
    exact ⟨.inr (.inl rfl), by decide⟩
  · have hoctet := isSome_of_mapM_eq_some hns piece hpiece
    rw [octet?] at hoctet
    split at hoctet
    · rename_i hshape
      have hdigit : c.isDigit = true := List.all_eq_true.mp hshape.2.1 c hmem
      refine ⟨.inl (isSome_hexValue?_of_isDigit hdigit), ?_⟩
      rintro rfl
      exact absurd hdigit (by decide)
    · cases hoctet

theorem plain_of_group? {n : Nat} (h : group? cs = some n) : ∀ c ∈ cs, Plain c := by
  rw [group?] at h
  split at h
  · obtain ⟨values, hvalues, -⟩ := Option.map_eq_some_iff.mp h
    exact fun c hc => .inl (isSome_of_mapM_eq_some hvalues c hc)
  · cases h

theorem plain_of_groups? {ps : List (List Char)} {groups : List Nat}
    (h : groups? rules ps = some groups) : ∀ piece ∈ ps, ∀ c ∈ piece, Plain c := by
  fun_induction groups? rules ps generalizing groups with
  | case1 => exact List.forall_mem_nil _
  | case2 piece a b c d hoctets =>
    exact List.forall_mem_singleton.mpr fun x hx => (plain_of_octets? hoctets x hx).1
  | case3 piece hoctets =>
    obtain ⟨n, hn, -⟩ := Option.map_eq_some_iff.mp h
    exact List.forall_mem_singleton.mpr (plain_of_group? hn)
  | case4 piece pieces hpieces ih =>
    rw [Option.bind_eq_bind, Option.bind_eq_some_iff] at h
    obtain ⟨n, hn, hrest⟩ := h
    rw [Option.bind_eq_bind, Option.bind_eq_some_iff] at hrest
    obtain ⟨more, hmore, -⟩ := hrest
    exact List.forall_mem_cons.mpr ⟨plain_of_group? hn, ih hmore⟩

theorem plain_of_pieces (h : ∀ piece ∈ pieces cs, ∀ c ∈ piece, Plain c) : ∀ c ∈ cs, Plain c := by
  intro c hc
  rw [pieces, if_neg (List.ne_nil_of_mem hc)] at h
  rcases Text.cut_or_mem_splitBy (· = ':') hc with hcut | ⟨piece, hpiece, hmem⟩
  · exact .inr (.inr (of_decide_eq_true hcut))
  · exact h piece hpiece c hmem

theorem eq_of_cutAtGap {before after : List Char} (h : cutAtGap cs = some (before, after)) :
    cs = before ++ ':' :: ':' :: after := by
  fun_induction cutAtGap cs generalizing before with
  | case1 rest =>
    obtain ⟨rfl, rfl⟩ := Prod.mk.inj (Option.some.inj h)
    rfl
  | case2 c rest _ ih =>
    obtain ⟨⟨front, back⟩, hcut, heq⟩ := Option.map_eq_some_iff.mp h
    obtain ⟨rfl, rfl⟩ := Prod.mk.inj heq
    rw [ih hcut, List.cons_append]
  | case3 => cases h

theorem plain_of_ipv6OfText? {a : BitVec 128} (h : ipv6OfText? rules cs = some a) :
    ∀ c ∈ cs, Plain c := by
  rw [ipv6OfText?] at h
  split at h
  · rw [Option.bind_eq_bind, Option.bind_eq_some_iff] at h
    obtain ⟨groups, hgroups, -⟩ := h
    exact plain_of_pieces (plain_of_groups? hgroups)
  · rename_i before after hgap
    simp only [Option.bind_eq_bind, Option.bind_eq_some_iff] at h
    obtain ⟨front, hfront, back, hback, -⟩ := h
    rw [eq_of_cutAtGap hgap]
    have hbefore : ∀ c ∈ before, Plain c := plain_of_pieces fun piece hpiece => by
      obtain ⟨n, hn⟩ := Option.isSome_iff_exists.mp (isSome_of_mapM_eq_some hfront piece hpiece)
      exact plain_of_group? hn
    refine List.forall_mem_append.mpr ⟨hbefore, ?_⟩
    exact List.forall_mem_cons.mpr ⟨.inr (.inr rfl), List.forall_mem_cons.mpr
      ⟨.inr (.inr rfl), plain_of_pieces (plain_of_groups? hback)⟩⟩

theorem colon_mem_ipv6Text (a : BitVec 128) : ':' ∈ (ipv6Text a).toList := by
  rw [ipv6Text]
  split
  · rw [String.toList_append]
    exact List.mem_append_left _ (by decide)
  · dsimp only
    split
    · rw [String.toList_append, String.toList_append]
      exact List.mem_append_left _ (List.mem_append_right _ (by decide))
    · rw [toList_groupsText]
      have hgroups : ∃ g g' rest, ipv6Groups a = g :: g' :: rest := ⟨_, _, _, rfl⟩
      obtain ⟨g, g', rest, hgroups⟩ := hgroups
      rw [hgroups, joined_cons_cons]
      exact List.mem_append_right _ List.mem_cons_self

/-- An address of eight groups is no dotted one. -/
theorem ipv4OfText?_ipv6Text (a : BitVec 128) : ipv4OfText? rules (ipv6Text a).toList = none := by
  rw [ipv4OfText?, Option.map_eq_none_iff, Option.eq_none_iff_forall_ne_some]
  exact fun x hx => (plain_of_octets? hx ':' (colon_mem_ipv6Text a)).2 rfl

end Net

/-! ## Addresses and networks -/

namespace IpAddress

theorem ofTextWith?_text (rules : Net.AddressRules) (a : IpAddress) :
    ofTextWith? rules a.text.toList = some a := by
  cases a with
  | v4 a => rw [ofTextWith?, text, Net.ipv4OfText?_ipv4Text]
  | v6 a =>
    rw [ofTextWith?, text, Net.ipv4OfText?_ipv6Text]
    dsimp only
    rw [Net.ipv6OfText?_ipv6Text, Option.map_some]

/-- An address reads back from its text. -/
theorem ofText?_text (a : IpAddress) : ofText? a.text = some a := ofTextWith?_text .strict a

/-- Only certain characters stand in the text of an address. -/
theorem plain_of_ofTextWith? {rules : Net.AddressRules} {cs : List Char} {a : IpAddress}
    (h : ofTextWith? rules cs = some a) : ∀ c ∈ cs, Net.Plain c := by
  rw [ofTextWith?] at h
  split at h
  · rename_i bits hbits
    obtain ⟨x, hx, -⟩ := Option.map_eq_some_iff.mp hbits
    exact fun c hc => (Net.plain_of_octets? hx c hc).1
  · obtain ⟨bits, hbits, -⟩ := Option.map_eq_some_iff.mp h
    exact Net.plain_of_ipv6OfText? hbits

theorem slash_not_mem_text (a : IpAddress) : '/' ∉ a.text.toList := fun h =>
  absurd (plain_of_ofTextWith? (ofTextWith?_text .strict a) '/' h) (by rw [Net.Plain]; decide)

end IpAddress

namespace Network

/-- A prefix length reads back from its digits. -/
theorem length?_toDigits {bound digits : Nat} (n : Fin bound) (hdigits : 0 < digits)
    (hbound : bound ≤ 10 ^ digits) :
    length? bound digits (Nat.toDigits 10 n.val) = some n := by
  have hlength : (Nat.toDigits 10 n.val).length ≤ digits :=
    (Nat.length_toDigits_le_iff (by decide) hdigits).mpr (by omega)
  have hvalue := Decimal.digitsValue_toDigits n.val
  have hlt : Decimal.digitsValue (Nat.toDigits 10 n.val) < bound := by
    rw [hvalue]
    exact n.isLt
  have hshape : Nat.toDigits 10 n.val ≠ [] ∧ (Nat.toDigits 10 n.val).all Char.isDigit ∧
      (Nat.toDigits 10 n.val).length ≤ digits ∧
      Decimal.digitsValue (Nat.toDigits 10 n.val) < bound :=
    ⟨Nat.toDigits_ne_nil, Decimal.all_isDigit_toDigits _, hlength, hlt⟩
  rw [length?, dif_pos hshape, Option.some.injEq]
  exact Fin.ext hvalue

/-- The address that a network was written with. -/
def address : Network → IpAddress
  | v4 a _ => .v4 a
  | v6 a _ => .v6 a

theorem toList_text (n : Network) :
    n.text.toList = n.address.text.toList ++ '/' :: Nat.toDigits 10 n.length := by
  have hself : ∀ s : String, toString s = s := fun s => rfl
  cases n <;> simp [text, address, IpAddress.text, length, hself]

theorem splitBy_text (n : Network) : Text.splitBy (· = '/') n.text.toList =
    [n.address.text.toList, Nat.toDigits 10 n.length] := by
  rw [toList_text, Text.splitBy_append_cons _ (decide_eq_true rfl), Text.splitBy_eq_singleton]
  · exact fun c hc => decide_eq_false fun hslash =>
      Net.not_mem_toDigits rfl n.length (hslash ▸ hc)
  · exact fun c hc => decide_eq_false fun hslash =>
      n.address.slash_not_mem_text (hslash ▸ hc)

/-- A network reads back from its text. -/
theorem ofText?_text (n : Network) : ofText? n.text = some n := by
  rw [ofText?, splitBy_text]
  dsimp only
  cases n with
  | v4 a n =>
    rw [address, IpAddress.text, Net.ipv4OfText?_ipv4Text]
    dsimp only
    rw [length, length?_toDigits n (by decide) (by decide), Option.map_some]
  | v6 a n =>
    rw [address, IpAddress.text, Net.ipv4OfText?_ipv6Text]
    dsimp only
    rw [Net.ipv6OfText?_ipv6Text, length, length?_toDigits n (by decide) (by decide)]
    rfl

end Network

/-- The text of a network is not the text of an address. -/
theorem IpAddress.ofText?_text_network (n : Network) : IpAddress.ofText? n.text = none := by
  rw [Option.eq_none_iff_forall_ne_some]
  intro a ha
  have hslash : '/' ∈ n.text.toList := by
    rw [Network.toList_text]
    exact List.mem_append_right _ List.mem_cons_self
  exact absurd (IpAddress.plain_of_ofTextWith? ha '/' hslash) (by rw [Net.Plain]; decide)

end ProfileMigration
