/-
  ProfileMigration.Proofs.Template.Variables

  Device variables in the definitions of converted objects:

    Carriage.variable       -- the variable that is made of one
    CarriesVariable         -- a variable that is configured is carried over
    KeepsVariables          -- every variable that is read is carried over or refused
    convert_keeps_variables -- and so it is, but for three values that decide what parcels look like
    convert_neglects_role   -- one of these: the role of a name server
-/
import ProfileMigration.Proofs.Field.Leaves
import ProfileMigration.Proofs.Legacy.Variables
import ProfileMigration.Proofs.Template.Contents
import ProfileMigration.Proofs.Template.Unsetting

namespace ProfileMigration

namespace Template

/-! ## Carrying variables over -/

/-- The variable that a variable is carried over as. -/
def Carriage.variable : Carriage → String → String
  | .mask _ _, name => name ++ "_mask"
  | _, name => name

theorem Carriage.carry_reference (how : Carriage) (source name : String) :
    how.carry source (.reference name) = .ok (.reference (how.variable name)) := by
  cases how with
  | plain | text | integer | truth | address | mask => rfl

/-- The variable at a path, if there is one, is carried over. -/
def CarriesVariable (how : Carriage) (source : String) (row : List (String × Json))
    (made : TypedValue → Prop) : Prop :=
  ∀ name, Legacy.variableAt? row source = some name → made (.reference (how.variable name))

theorem CarriedFrom.carriesVariable {hints : Hints} {how : Carriage} {source : String}
    {row : List (String × Json)} {made : TypedValue → Prop}
    (h : CarriedFrom hints how source row made) : CarriesVariable how source row made := by
  intro name hname
  have hvalue : (Legacy.normalizeMembers hints row).value? source = some (.reference name) :=
    Legacy.value?_of_variableAt? hname
  obtain ⟨w, hw, hmade⟩ := h _ (configured?_of_reference hvalue)
  rw [how.carry_reference] at hw
  rwa [Except.ok.inj hw]

theorem Selector.Settled.variableAt? {s : Selector} {hints : Hints}
    {members : List (String × Json)} (h : s.Settled (Legacy.normalizeMembers hints members)) :
    ∀ row ∈ Legacy.rowsAlong s.rows members, s.due (Legacy.normalizeMembers hints row) = true →
      Legacy.variableAt? row s.source = none := by
  intro row hrow hdue
  have hitem : Legacy.normalizeMembers hints row ∈
      itemsAlong s.rows (Legacy.normalizeMembers hints members) := by
    rw [itemsAlong_normalizeMembers]
    exact List.mem_map_of_mem hrow
  rw [Option.eq_none_iff_forall_ne_some]
  intro name hname
  exact h _ hitem hdue name (Legacy.value?_of_variableAt? hname)

end Template

/-! ## Converted objects -/

/-- Every variable that a definition gives for a value that is read has been carried over or
    refused. -/
structure LegacyObject.KeepsVariables (o : LegacyObject) (hints : Hints) (data : FieldMap) :
    Prop where
  carried : ∀ s ∈ Template.sites o.kind,
    s.Each hints (Template.CarriesVariable s.how s.source) o.root data
  /-- Only the last entry for a slot leaves anything. -/
  lastCarried : ∀ s ∈ Template.slotSites o.kind,
    s.Each hints (Template.CarriesVariable s.how s.source) o.root data
  refused : ∀ s ∈ Template.selectors o.kind (Legacy.normalizeMembers hints o.root),
    ∀ row ∈ Legacy.rowsAlong s.rows o.root, s.due (Legacy.normalizeMembers hints row) = true →
      Legacy.variableAt? row s.source = none

/-- A converted object has kept the device variables of its definition. Wherever a value is
    carried over, in any list, a variable in its place is, in both halves of a network with a mark
    on the name for the mask, and never a default. Wherever a value decides what the parcel looks
    like, there was no variable. This leaves out the role of a name server, whether an address
    comes from a server, and whether there is a tunnel. -/
theorem convert_keeps_variables {o : LegacyObject} {id : Uuid} {c : Context} {p : Parcel}
    {t : Template} (ht : template? o.kind = some t) (h : convert o id c = .ok p) :
    o.KeepsVariables t.hints p.data := by
  have hcarries := convert_carries ht h
  refine ⟨fun s hs => ?_, fun s hs => ?_, fun s hs => ?_⟩
  · exact (hcarries.sites s hs).each fun row made hrow => hrow.carriesVariable
  · exact (hcarries.slots s hs).each fun row made hrow => hrow.carriesVariable
  · exact (hcarries.settled s hs).variableAt?

/-- A device variable of a given name. -/
def deviceVariable (name : String) : Json :=
  .obj [("vipType", .str "variableName"), ("vipVariableName", .str name)]

/-- A route to a network that is a device variable. -/
def variedVpn : LegacyObject :=
  objectOf "cisco_vpn" [("vpn-id", .str "10"), ("ip", .obj [("route", .arr [
    .obj [("prefix", deviceVariable "net"), ("next-hop", .arr [
      .obj [("address", deviceVariable "hop"), ("distance", deviceVariable "cost")]])]])])]

/-- The variable goes into both halves of the network. -/
theorem convert_keeps_variables_vpn :
    ∃ p, convert variedVpn (generatedId .featureTemplate "x") ⟨[], []⟩ = .ok p ∧
      variedVpn.KeepsVariables Template.vpnHints p.data ∧
      p.data.leaves = [.reference "hop", .reference "cost", .reference "net",
        .reference "net_mask", .int 10] := by
  have hleaves : (convert variedVpn (generatedId .featureTemplate "x") ⟨[], []⟩).map
      (fun p => p.data.leaves) = .ok [.reference "hop", .reference "cost", .reference "net",
        .reference "net_mask", .int 10] := by
    decide +kernel
  obtain ⟨p, hp, hdata⟩ := map_eq_ok hleaves
  exact ⟨p, hp, convert_keeps_variables rfl hp, hdata⟩

/-- A name server whose role is a device variable. -/
def serverMembers : List (String × Json) :=
  [("dns-addr", .str "10.0.0.1"), ("role", deviceVariable "dns_role")]

def serverVpn : LegacyObject :=
  objectOf "cisco_vpn" [("vpn-id", .str "10"), ("dns", .arr [.obj serverMembers])]

/-- It becomes the primary one, and nothing is left of the variable, which every reader of values
    that decide what a parcel looks like would refuse. -/
theorem convert_neglects_role :
    Legacy.variableAt? serverMembers "role" = some "dns_role" ∧
    Template.fixedText? (Legacy.normalizeMembers Template.vpnHints serverMembers) "role" =
      .error (.unsupported "role" "a device variable cannot select the target shape") ∧
    (convert serverVpn (generatedId .featureTemplate "x") ⟨[], []⟩).map (·.data) =
      .ok [("dnsIpv4", .group [("primaryDnsAddressIpv4", .value (.text "10.0.0.1"))]),
        ("vpnId", .value (.int 10))] := by
  decide +kernel

/-- Nothing is left of a variable for the other two values either. -/
example : ∀ member ∈ [("ip", .obj [("dhcp-client", deviceVariable "dhcp")]),
      ("tunnel-interface", deviceVariable "tunnel")],
    (convert (objectOf "cisco_vpn_interface" [("if-name", .str "ge0"), member])
      (generatedId .featureTemplate "x") ⟨[], []⟩).map
        (fun p => p.data.leaves.all fun v => v.literal?.isSome) = .ok true := by
  decide +kernel

end ProfileMigration
