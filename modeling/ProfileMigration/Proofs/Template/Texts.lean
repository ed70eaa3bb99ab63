/-
  ProfileMigration.Proofs.Template.Texts

  Texts that are declared as such, in the definitions of banners and time servers:

    Template.textOr_of_text / textRequired_of_text -- texts where an empty one says nothing
    Template.banner_text        -- the texts of a banner
    Template.timeKey_secret     -- the text of a time key
    Template.ntp_keys           -- where time keys stand
    Template.ntp_of_replaced    -- other texts do not keep them from converting
    Parcel.SendsTrimmed         -- a text is sent without the blanks at its ends
    convert_trims_texts         -- and so it is, whatever it looks like

  A text without blanks at its ends is carried over as it is, even one that would be read as a truth
  value, a number or an address elsewhere.
-/
import ProfileMigration.Proofs.Parcel.Request
import ProfileMigration.Proofs.Template.Masks

namespace ProfileMigration

namespace Template

variable {values m m' data row key : FieldMap} {path t : String} {w : TypedValue}

/-! ## Texts that may be empty -/

/-- An empty text says nothing. -/
theorem configured?_of_text (h : values.value? path = some (.text t)) :
    configured? values path = if t = "" then none else some (.text t) := by
  rw [configured?, h, Option.filter_some]
  by_cases ht : t = ""
  · subst ht
    rfl
  · have hconfigures : saysNothing (.text t) = false := decide_eq_false ht
    rw [hconfigures, if_neg ht]
    rfl

/-- The empty text stands for one that is not configured, so that it is as if it were. -/
theorem textOr_of_text (h : values.value? path = some (.text t)) :
    textOr values path "" = .text t := by
  rw [textOr, orDefault, configured?_of_text h]
  by_cases ht : t = ""
  · rw [if_pos ht, ht]
    rfl
  · rw [if_neg ht, Option.getD_some]

theorem textRequired_of_text (h : values.value? path = some (.text t)) :
    textRequired values path = if t = "" then .error (.missing path) else .ok (.text t) := by
  rw [textRequired, required, configured?_of_text h]
  by_cases ht : t = ""
  · rw [if_pos ht, if_pos ht]
    rfl
  · rw [if_neg ht, if_neg ht]
    rfl

/-! ## Banners -/

/-- Both texts of a banner stand at the top of the parcel. -/
theorem banner_text (values : FieldMap) : ∃ data, banner values = .ok data ∧ data.SlashFree ∧
    ∀ leaf ∈ ["login", "motd"], data.value? leaf = some (textOr values leaf "") := by
  let entries : List (String × Option TypedValue) :=
    [("login", textOr values "login" ""), ("motd", textOr values "motd" "")]
  have hapart : AllApart (entries.map Prod.fst) := by
    show AllApart ["login", "motd"]
    decide
  refine ⟨assemble entries, rfl, slashFree_assemble entries, fun leaf hleaf => ?_⟩
  refine value?_assemble hapart ?_
  rcases List.mem_pair.mp hleaf with rfl | rfl
  · exact List.mem_cons_self
  · exact List.mem_cons_of_mem _ List.mem_cons_self

/-! ## Time keys -/

theorem timeKey_secret (h : timeKey row = .ok key) :
    key.SlashFree ∧ ∃ v, textRequired row "md5" = .ok v ∧ key.value? "md5Value" = some v := by
  rw [timeKey] at h
  obtain ⟨number, -, h⟩ := bind_eq_ok h
  obtain ⟨v, hv, h⟩ := bind_eq_ok h
  obtain rfl := Except.ok.inj h
  let entries : List (String × Option TypedValue) := [("keyId", number), ("md5Value", v)]
  have hapart : AllApart (entries.map Prod.fst) := by
    show AllApart ["keyId", "md5Value"]
    decide
  refine ⟨slashFree_assemble entries, v, hv, value?_assemble hapart ?_⟩
  exact List.mem_cons_of_mem _ List.mem_cons_self

/-- The time keys stand in one list, one for one. -/
theorem ntp_keys (h : ntp values = .ok data) : data.SlashFree ∧ ∃ keys,
    List.Forall₂ (fun row key => timeKey row = .ok key) (values.items "keys/authentication") keys ∧
      (keys ≠ [] → data.field? "authentication/authenticationKeys" = some (.items keys)) := by
  rw [ntp] at h
  obtain ⟨servers, -, h⟩ := bind_eq_ok h
  obtain ⟨keys, hkeys, h⟩ := bind_eq_ok h
  obtain ⟨leads, -, h⟩ := bind_eq_ok h
  obtain ⟨stratum, -, h⟩ := bind_eq_ok h
  have hserver : Path.Single "server" := by decide +kernel
  let others := assemble [("authentication/trustedKeys", configured? values "keys/trusted"),
    ("leader/enable", leads), ("leader/stratum", stratum),
    ("leader/source", textOpt values "master/source")]
  let rest : FieldMap := Keyed.insert "server" (.items servers) others
  have hfree : rest.SlashFree :=
    (slashFree_assemble _).insert hserver (Field.slashFree_items servers)
  by_cases hnil : keys = []
  · subst hnil
    obtain rfl := Except.ok.inj h
    exact ⟨hfree, [], mapM_eq_ok_iff.mp hkeys, fun hne => absurd rfl hne⟩
  · have hfull : ¬ keys.isEmpty = true := mt List.isEmpty_iff.mp hnil
    have hset : rest.set "authentication/authenticationKeys" (.items keys) = data :=
      (if_neg hfull).symm.trans (Except.ok.inj h)
    have hslashFree := hfree.set "authentication/authenticationKeys" (Field.slashFree_items keys)
    have hself := FieldMap.field?_set_self hfree "authentication/authenticationKeys" (.items keys)
    rw [hset] at hslashFree hself
    exact ⟨hslashFree, keys, mapM_eq_ok_iff.mp hkeys, fun _ => hself⟩

/-! ## Other texts -/

theorem timeServer_of_replaced (h : FieldMap.Replaces "md5" w m m') :
    timeServer m' = timeServer m := by
  have hsame : ∀ path, Path.leaf path ≠ "md5" → configured? m' path = configured? m path :=
    fun _ => configured?_of_replaced h
  rw [timeServer, timeServer, textRequired_congr (hsame "name" (by decide)),
    intOr_congr (hsame "vpn" (by decide)), intOr_congr (hsame "version" (by decide)),
    intOpt_congr (hsame "key" (by decide)), boolOr_congr (hsame "prefer" (by decide)),
    textOpt_congr (hsame "source-interface" (by decide))]

/-- A time key that converts does so with any other text that says something. -/
theorem timeKey_of_replaced (h : FieldMap.Replaces "md5" w m m') (hw : saysNothing w = false)
    {out : FieldMap} (hok : timeKey m = .ok out) : ∃ out', timeKey m' = .ok out' := by
  have hnumber : intRequired m' "number" = intRequired m "number" :=
    intRequired_congr (configured?_of_replaced h (by decide))
  rw [timeKey] at hok
  obtain ⟨number, hnumber₀, hok⟩ := bind_eq_ok hok
  obtain ⟨secret, hsecret₀, -⟩ := bind_eq_ok hok
  have hsecret : ∃ v, textRequired m' "md5" = .ok v := by
    rcases configured?_or_of_replaced h hw "md5" with hsame | hnew
    · exact ⟨secret, (textRequired_congr hsame).trans hsecret₀⟩
    · refine ⟨toText w, ?_⟩
      rw [textRequired, required, hnew]
      rfl
  obtain ⟨v, hv⟩ := hsecret
  rw [timeKey, hnumber, hnumber₀, hv]
  exact ⟨_, rfl⟩

/-- Time servers and keys that convert do so with any other text for the keys. -/
theorem ntp_of_replaced (h : FieldMap.Replaces "md5" w m m') (hw : saysNothing w = false)
    {out : FieldMap} (hok : ntp m = .ok out) : ∃ out', ntp m' = .ok out' := by
  have hsame : ∀ path, Path.leaf path ≠ "md5" → configured? m' path = configured? m path :=
    fun _ => configured?_of_replaced h
  have hservers : (m'.items "server").mapM timeServer = (m.items "server").mapM timeServer :=
    mapM_congr ((h.items "server").imp fun _ _ => timeServer_of_replaced)
  have hleads := boolOr_congr (hsame "master/enable" (by decide)) false
  have hstratum := intOpt_congr (hsame "master/stratum" (by decide))
  rw [ntp] at hok
  obtain ⟨servers, hservers₀, hok⟩ := bind_eq_ok hok
  obtain ⟨keys, hkeys₀, hok⟩ := bind_eq_ok hok
  obtain ⟨leads, hleads₀, hok⟩ := bind_eq_ok hok
  obtain ⟨stratum, hstratum₀, -⟩ := bind_eq_ok hok
  -- Only the keys are other ones, and each of them converts
  have hkeys : ∃ keys', (m'.items "keys/authentication").mapM timeKey = .ok keys' := by
    have hconverted := exists_mapM_eq_ok_iff.mp ⟨keys, hkeys₀⟩
    refine exists_mapM_eq_ok_iff.mpr
      (forall_mem_right_of_forall₂ (h.items "keys/authentication") hconverted ?_)
    rintro row row' hrow ⟨out, hout⟩
    exact timeKey_of_replaced hrow hw hout
  obtain ⟨keys', hkeys'⟩ := hkeys
  rw [ntp, hservers, hservers₀, hkeys', hleads, hleads₀, hstratum, hstratum₀]
  exact ⟨_, rfl⟩

end Template

/-! ## Texts in definitions -/

/-- A text that is declared as one is read without the blanks at its ends. -/
theorem Legacy.value?_text {hints : Hints} {members : List (String × Json)} {path s : String}
    (hkind : hints.kind? path = some .text) (h : contentAt? members path = some (.str s)) :
    (normalizeMembers hints members).value? path = some (.text (Text.trim s)) := by
  rw [value?_of_contentAt? h fun _ => rfl, leaf_text_str hkind]
  rfl

/-- A parcel sends a text at a place without the blanks at its ends, so that it sends the text
    itself exactly if there are none. -/
def Parcel.SendsTrimmed (p : Parcel) (place : List Step) (s : String) : Prop :=
  p.Sends place (.text (Text.trim s)) ∧ (p.Sends place (.text s) ↔ Text.BareEnds s)

theorem Parcel.sendsTrimmed {p : Parcel} {place : List Step} {s : String}
    (h : (Field.group p.data).at? place = some (.value (.text (Text.trim s)))) :
    p.SendsTrimmed place s :=
  ⟨sends_fixed h, (sends_text_iff (sends_fixed h)).trans Text.trim_eq_self_iff⟩

/-! ## Converted objects -/

variable {o : LegacyObject} {id : Uuid} {c : Context} {p : Parcel} {s : String}

open Template (bannerHints ntpHints)

theorem LegacyObject.normalize_root (hkind : o.kind ≠ "cisco_ospf") (hints : Hints) :
    Legacy.normalize hints o.definition = Legacy.normalizeMembers hints o.root := by
  rw [← Template.root_normalize, Template.root, if_neg hkind]

/-- Every banner converts, and sends its texts without the blanks at their ends. -/
theorem convert_banner (hkind : o.kind = "cisco_banner") (id : Uuid) (c : Context) :
    ∃ p, convert o id c = .ok p ∧ ∀ leaf ∈ ["login", "motd"], ∀ s,
      Legacy.contentAt? o.root leaf = some (.str s) → p.SendsTrimmed [.under leaf] s := by
  have hdeclared : ∀ leaf ∈ ["login", "motd"],
      bannerHints.kind? leaf = some .text ∧ Path.segments leaf = [leaf] := by
    decide +kernel
  have hvalues : Legacy.normalize bannerHints o.definition =
      Legacy.normalizeMembers bannerHints o.root :=
    o.normalize_root (hkind ▸ by decide) bannerHints
  obtain ⟨data, hdata, hfree, htexts⟩ :=
    Template.banner_text (Legacy.normalizeMembers bannerHints o.root)
  have hconvert : convert o id c = .ok ⟨some id, o.name, o.description, .banner, data⟩ := by
    have ht : template? o.kind =
        some (Template.plain "cisco_banner" bannerHints .banner Template.banner) := by
      rw [hkind]
      rfl
    refine convert_eq_ok_iff.mpr ⟨_, .banner, data, ht, ?_, rfl⟩
    show (Template.banner (Legacy.normalize bannerHints o.definition)).map _ = _
    rw [hvalues, hdata]
    rfl
  refine ⟨_, hconvert, fun leaf hleaf s hs => Parcel.sendsTrimmed ?_⟩
  obtain ⟨hhint, hsegments⟩ := hdeclared leaf hleaf
  have hread := htexts leaf hleaf
  rw [Template.textOr_of_text (Legacy.value?_text hhint hs)] at hread
  have hplace := hfree.at?_of_value? hread
  rw [hsegments] at hplace
  exact hplace

/-- Where the text of a time key stands in a parcel. -/
def timeKeyPlace (i : Nat) : List Step :=
  [.under "authentication", .under "authenticationKeys", .item i, .under "md5Value"]

theorem getElem?_of_forall₂ {α β : Type} {R : α → β → Prop} {xs : List α} {ys : List β}
    (h : List.Forall₂ R xs ys) {i : Nat} {x : α} (hx : xs[i]? = some x) :
    ∃ y, ys[i]? = some y ∧ R x y := by
  obtain ⟨hi, rfl⟩ := List.getElem?_eq_some_iff.mp hx
  have hi' : i < ys.length := h.length_eq ▸ hi
  exact ⟨ys[i], List.getElem?_eq_getElem hi', h.get hi hi'⟩

theorem template?_ntp (hkind : o.kind = "cisco_ntp") : template? o.kind =
    some (Template.referring "cisco_ntp" ntpHints .ntp fun _ => Template.ntp) := by
  rw [hkind]
  rfl

/-- Time keys that convert have texts with more than blanks, and send them without those at their
    ends. -/
theorem convert_timeKey (hkind : o.kind = "cisco_ntp") (h : convert o id c = .ok p) {i : Nat}
    {row : List (String × Json)}
    (hrow : (Legacy.rowsAt o.root "keys/authentication")[i]? = some row)
    (hs : Legacy.contentAt? row "md5" = some (.str s)) :
    Text.trim s ≠ "" ∧ p.SendsTrimmed (timeKeyPlace i) s := by
  have hdata : Template.ntp (Legacy.normalizeMembers ntpHints o.root) = .ok p.data := by
    rw [← o.normalize_root (hkind ▸ by decide) ntpHints]
    exact data_of_convert (template?_ntp hkind) h
  obtain ⟨hfree, keys, hkeys, hfield⟩ := Template.ntp_keys hdata
  rw [Legacy.items_normalizeMembers, List.forall₂_map_left_iff] at hkeys
  obtain ⟨key, hkey, hmade⟩ := getElem?_of_forall₂ hkeys hrow
  obtain ⟨hkeyFree, v, hv, hvalue⟩ := Template.timeKey_secret hmade
  rw [Template.textRequired_of_text (Legacy.value?_text (by decide) hs)] at hv
  by_cases htrim : Text.trim s = ""
  · rw [if_pos htrim] at hv
    cases hv
  · rw [if_neg htrim] at hv
    obtain rfl := Except.ok.inj hv
    refine ⟨htrim, Parcel.sendsTrimmed ?_⟩
    have hne : keys ≠ [] := by
      rintro rfl
      cases hkey
    have hplace : timeKeyPlace i =
        (Path.segments "authentication/authenticationKeys").map .under ++
          .item i :: (Path.segments "md5Value").map .under := by
      have hlist : Path.segments "authentication/authenticationKeys" =
          ["authentication", "authenticationKeys"] := by
        decide +kernel
      have hleaf : Path.segments "md5Value" = ["md5Value"] := by decide +kernel
      rw [hlist, hleaf]
      rfl
    -- The list, the key in it, and the text of that
    rw [hplace, Field.at?_append, hfree.at?_of_field? (hfield hne), Option.bind_some, Field.at?,
      hkey, Option.bind_some]
    exact hkeyFree.at?_of_value? hvalue

/-- Time servers that convert with other texts for keys convert with any that is not blank. -/
theorem convert_of_otherTimeKeys (hkind : o.kind = "cisco_ntp") (hs : Text.trim s ≠ "")
    (h : OtherwiseValid "md5" s o id c) : ∃ p, convert o id c = .ok p := by
  obtain ⟨others, members, p, hmembers, hrewrites, hok⟩ := h
  have ht := template?_ntp hkind
  have hother : Template.ntp (Legacy.normalizeMembers ntpHints others) = .ok p.data :=
    data_of_convert (by exact ht) hok
  have hreplaces : FieldMap.Replaces "md5" (.fixed (Legacy.leaf ntpHints "md5" (.str s)))
      (Legacy.normalizeMembers ntpHints others) (Legacy.normalizeMembers ntpHints members) :=
    Legacy.replaces_normalizeMembers (by decide) hrewrites
  have hconfigures :
      Template.saysNothing (.fixed (Legacy.leaf ntpHints "md5" (.str s))) = false := by
    rw [Legacy.leaf_text_str (by decide)]
    exact decide_eq_false hs
  obtain ⟨data, hdata⟩ := Template.ntp_of_replaced hreplaces hconfigures hother
  refine ⟨_, convert_eq_ok_iff.mpr ⟨_, .ntp, data, ht, ?_, rfl⟩⟩
  show (Template.ntp (Legacy.normalize ntpHints o.definition)).map _ = _
  rw [hmembers, Legacy.normalize, hdata]
  rfl

/-- Texts that are declared as such are sent without the blanks at their ends, and otherwise as
    they are, whatever they look like. That goes for the texts of banners, which always convert, and
    for those of time keys, which convert with any text that has more than blanks. -/
theorem convert_trims_texts (o : LegacyObject) (id : Uuid) (c : Context) :
    (o.kind = "cisco_banner" → ∃ p, convert o id c = .ok p ∧ ∀ leaf ∈ ["login", "motd"], ∀ s,
      Legacy.contentAt? o.root leaf = some (.str s) → p.SendsTrimmed [.under leaf] s) ∧
    (o.kind = "cisco_ntp" →
      (∀ p, convert o id c = .ok p → ∀ i row s,
        (Legacy.rowsAt o.root "keys/authentication")[i]? = some row →
        Legacy.contentAt? row "md5" = some (.str s) →
          Text.trim s ≠ "" ∧ p.SendsTrimmed (timeKeyPlace i) s) ∧
      ∀ s, Text.trim s ≠ "" → OtherwiseValid "md5" s o id c → ∃ p, convert o id c = .ok p) := by
  refine ⟨fun hkind => convert_banner hkind id c, fun hkind => ⟨?_, ?_⟩⟩
  · exact fun p h i row s hrow hs => convert_timeKey hkind h hrow hs
  · exact fun s hs h => convert_of_otherTimeKeys hkind hs h

/-- A wrapped truth value, an address with blanks around it, and a network as a secret. -/
theorem convert_trims_texts_looks :
    let banner := objectOf "cisco_banner" [("login", .obj [("vipType", .str "constant"),
      ("vipValue", .str "true")]), ("motd", .str " 10.0.0.1\n")]
    let servers := fun s => objectOf "cisco_ntp" [("keys", .obj [("authentication", .arr [
      .obj [("number", .ofInt64 1), ("md5", .str s)]])])]
    let id := generatedId .featureTemplate "x"
    (∃ p, convert banner id ⟨[], []⟩ = .ok p ∧ p.Sends [.under "login"] (.text "true") ∧
      p.Sends [.under "motd"] (.text "10.0.0.1")) ∧
    ∃ p, convert (servers "10.0.0.0/8") id ⟨[], []⟩ = .ok p ∧
      p.Sends (timeKeyPlace 0) (.text "10.0.0.0/8") := by
  intro banner servers id
  have hbare : ∀ s ∈ ["true", "10.0.0.0/8"], Text.BareEnds s := by
    refine fun s hs => Text.trim_eq_self_iff.mp ?_
    revert s
    decide +kernel
  have htrim : Text.trim " 10.0.0.1\n" = "10.0.0.1" := by decide +kernel
  constructor
  · obtain ⟨p, hp, htexts⟩ := (convert_trims_texts banner id ⟨[], []⟩).1 rfl
    have hlogin := htexts "login" (by decide) "true" (by decide +kernel)
    have hmotd := htexts "motd" (by decide) " 10.0.0.1\n" (by decide +kernel)
    exact ⟨p, hp, hlogin.2.mpr (hbare "true" (by decide)), htrim ▸ hmotd.1⟩
  · obtain ⟨hkeys, hothers⟩ := (convert_trims_texts (servers "10.0.0.0/8") id ⟨[], []⟩).2 rfl
    have hname : (convert (servers "secret") id ⟨[], []⟩).map Parcel.name = .ok "x" := by
      decide +kernel
    obtain ⟨other, hother, -⟩ := map_eq_ok hname
    have hexchanges : Legacy.Exchanges "md5" "10.0.0.0/8" "md5" (.str "secret")
        (.str "10.0.0.0/8") :=
      ⟨by decide +kernel, ⟨"secret", rfl⟩, rfl⟩
    have hvalid : OtherwiseValid "md5" "10.0.0.0/8" (servers "10.0.0.0/8") id ⟨[], []⟩ := by
      refine ⟨_, _, other, rfl, ?_, hother⟩
      exact .cons (.object rfl (.cons (.list (.cons (.cons (.same _ _)
        (.cons (.step (.same _ _) hexchanges) .nil)) .nil)) .nil)) .nil
    obtain ⟨p, hp⟩ := hothers "10.0.0.0/8" (by decide +kernel) hvalid
    have hkey := hkeys p hp 0 [("number", .ofInt64 1), ("md5", .str "10.0.0.0/8")] "10.0.0.0/8"
      (by decide +kernel) (by decide +kernel)
    exact ⟨p, hp, hkey.2.2.mpr (hbare "10.0.0.0/8" (by decide))⟩

/-- The blanks at the ends of a banner are lost, and a secret of blanks counts as missing. -/
theorem convert_loses_blanks :
    let banner := objectOf "cisco_banner" [("login", .str " hi ")]
    let servers := objectOf "cisco_ntp" [("keys", .obj [("authentication", .arr [
      .obj [("number", .ofInt64 1), ("md5", .str " ")]])])]
    let id := generatedId .featureTemplate "x"
    (∃ p, convert banner id ⟨[], []⟩ = .ok p ∧ p.Sends [.under "login"] (.text "hi") ∧
      ¬ p.Sends [.under "login"] (.text " hi ")) ∧
    convert servers id ⟨[], []⟩ = .error (.missing "md5") := by
  have hmissing : convert (objectOf "cisco_ntp" [("keys", .obj [("authentication", .arr [
      .obj [("number", .ofInt64 1), ("md5", .str " ")]])])]) (generatedId .featureTemplate "x")
      ⟨[], []⟩ = .error (.missing "md5") := by
    decide +kernel
  have htrim : Text.trim " hi " = "hi" := by decide +kernel
  intro banner servers id
  obtain ⟨p, hp, htexts⟩ := convert_banner (o := banner) rfl id ⟨[], []⟩
  obtain ⟨hsent, -⟩ := htexts "login" (by decide) " hi " (by decide +kernel)
  rw [htrim] at hsent
  refine ⟨⟨p, hp, hsent, fun hblanks => ?_⟩, hmissing⟩
  have hne : "hi" ≠ " hi " := by decide
  exact hne ((Parcel.sends_text_iff hsent).mp hblanks)

end ProfileMigration
