/-
  ProfileMigration.Proofs.Template.Sites

  The values that each template carries over:

    basicSites, loggingSites, …     -- where they are read, how, and where they go
    yields_basic_made, …            -- parcels have what is made of them
-/
import ProfileMigration.Proofs.Template.Carrying

namespace ProfileMigration

namespace Template

/-! ## The system profile -/

def basicSites : List Site :=
  [site "timezone" .plain "clock/timezone",
    site "console-baud-rate" .plain "consoleBaudRate",
    site "max-omp-sessions" .integer "maxOmpSessions",
    site "track-transport" .truth "trackTransport",
    site "port-hop" .truth "portHop",
    site "track-default-gateway" .truth "trackDefaultGateway",
    site "controller-group-list" .plain "controllerGroupList",
    site "location" .text "gpsLocation/location",
    site "gps-location/latitude" .plain "gpsLocation/latitude",
    site "gps-location/longitude" .plain "gpsLocation/longitude"]

theorem yields_basic_made (values : FieldMap) :
    Yields (fun out => ∀ s ∈ basicSites, s.Made values out) (basic values) := by
  rw [basic]
  refine (yields_intOpt_carried _ _).bind fun sessions hsessions =>
    (yields_boolOr_carried _ _ _).bind fun transport htransport =>
    (yields_boolOr_carried _ _ _).bind fun hop hhop =>
    (yields_boolOr_carried _ _ _).bind fun gateway hgateway => .pure ?_
  have hapart : AllApart ["clock/timezone", "consoleBaudRate", "maxOmpSessions", "trackTransport",
      "portHop", "trackDefaultGateway", "controllerGroupList", "gpsLocation/location",
      "gpsLocation/latitude", "gpsLocation/longitude"] := by
    decide
  refine made_assemble hapart ?_
  simp only [basicSites, List.forall_mem_cons]
  refine ⟨entered_site (carried_textOr _ _ "UTC") ?_, entered_site (carried_textOr _ _ "9600") ?_,
    entered_site hsessions ?_, entered_site htransport ?_, entered_site hhop ?_,
    entered_site hgateway ?_, entered_site (carried_configured? _ _) ?_,
    entered_site (carried_textOpt _ _) ?_, entered_site (carried_configured? _ _) ?_,
    entered_site (carried_configured? _ _) ?_, List.forall_mem_nil _⟩
  all_goals simp

def bannerSites : List Site := [site "login" .plain "login", site "motd" .plain "motd"]

theorem yields_banner_made (values : FieldMap) :
    Yields (fun out => ∀ s ∈ bannerSites, s.Made values out) (banner values) := by
  rw [banner]
  have hapart : AllApart ["login", "motd"] := by decide
  refine .pure (made_assemble hapart ?_)
  simp only [bannerSites, List.forall_mem_cons]
  refine ⟨entered_site (carried_textOr _ _ "") ?_, entered_site (carried_textOr _ _ "") ?_,
    List.forall_mem_nil _⟩
  all_goals simp

def logServerSites : List Site :=
  [site "name" .text "name", site "vpn" .integer "vpn",
    site "source-interface" .text "sourceInterface", site "priority" .plain "priority",
    site "tls-enable" .truth "tlsEnable"]

theorem yields_logServer_made (server : FieldMap) :
    Yields (fun out => ∀ s ∈ logServerSites, s.Made server out) (logServer server) := by
  rw [logServer]
  refine (yields_textRequired_carried _ _).bind fun name hname =>
    (yields_intOr_carried _ _ _).bind fun vpn hvpn =>
    (yields_boolOr_carried _ _ _).bind fun encrypted hencrypted => .pure ?_
  have hapart : AllApart ["name", "vpn", "sourceInterface", "priority", "tlsEnable"] := by
    decide
  refine made_assemble hapart ?_
  simp only [logServerSites, List.forall_mem_cons]
  refine ⟨entered_site hname ?_, entered_site hvpn ?_, entered_site (carried_textOpt _ _) ?_,
    entered_site (carried_textOr _ _ "informational") ?_, entered_site hencrypted ?_,
    List.forall_mem_nil _⟩
  all_goals simp

def loggingSites : List Site :=
  [site "disk/enable" .truth "disk/diskEnable",
    site "disk/file/size" .integer "disk/file/diskFileSize",
    site "disk/file/rotate" .integer "disk/file/diskFileRotate"] ++
  logServerSites.map (.below ("server", "server"))

theorem yields_logging_made (values : FieldMap) :
    Yields (fun out => ∀ s ∈ loggingSites, s.Made values out) (logging values) := by
  rw [logging]
  refine (yields_boolOr_carried _ _ _).bind fun enabled henabled =>
    (yields_intOr_carried _ _ _).bind fun size hsize =>
    (yields_intOr_carried _ _ _).bind fun rotate hrotate =>
    (Yields.mapM_forall₂ fun server _ => yields_logServer_made server).bind
      fun servers hservers => .pure ?_
  have hpaths : AllApart ["disk/diskEnable", "disk/file/diskFileSize",
      "disk/file/diskFileRotate"] ∧ ∀ path ∈ ["disk/diskEnable", "disk/file/diskFileSize",
      "disk/file/diskFileRotate"], (Path.segments path).head? ≠ some "server" := by
    decide
  refine made_withItems_assemble hpaths.1 (by decide) hpaths.2 (by decide) ?_
    hservers
  simp only [List.forall_mem_cons]
  refine ⟨entered_site henabled ?_, entered_site hsize ?_, entered_site hrotate ?_,
    List.forall_mem_nil _⟩
  all_goals simp

def timeServerSites : List Site :=
  [site "name" .text "name", site "vpn" .integer "vpn", site "version" .integer "version",
    site "key" .integer "key", site "source-interface" .text "sourceInterface",
    site "prefer" .truth "preferCorrespondingServer"]

theorem yields_timeServer_made (server : FieldMap) :
    Yields (fun out => ∀ s ∈ timeServerSites, s.Made server out) (timeServer server) := by
  rw [timeServer]
  refine (yields_textRequired_carried _ _).bind fun name hname =>
    (yields_intOr_carried _ _ _).bind fun vpn hvpn =>
    (yields_intOr_carried _ _ _).bind fun version hversion =>
    (yields_intOpt_carried _ _).bind fun key hkey =>
    (yields_boolOr_carried _ _ _).bind fun preferred hpreferred => .pure ?_
  have hapart : AllApart ["name", "vpn", "version", "key", "sourceInterface",
      "preferCorrespondingServer"] := by
    decide
  refine made_assemble hapart ?_
  simp only [timeServerSites, List.forall_mem_cons]
  refine ⟨entered_site hname ?_, entered_site hvpn ?_, entered_site hversion ?_,
    entered_site hkey ?_, entered_site (carried_textOpt _ _) ?_, entered_site hpreferred ?_,
    List.forall_mem_nil _⟩
  all_goals simp

def timeKeySites : List Site :=
  [site "number" .integer "keyId", site "md5" .text "md5Value"]

theorem yields_timeKey_made (key : FieldMap) :
    Yields (fun out => ∀ s ∈ timeKeySites, s.Made key out) (timeKey key) := by
  rw [timeKey]
  refine (yields_intRequired_carried _ _).bind fun number hnumber =>
    (yields_textRequired_carried _ _).bind fun secret hsecret => .pure ?_
  have hapart : AllApart ["keyId", "md5Value"] := by decide
  refine made_assemble hapart ?_
  simp only [timeKeySites, List.forall_mem_cons]
  refine ⟨entered_site hnumber ?_, entered_site hsecret ?_, List.forall_mem_nil _⟩
  all_goals simp

def ntpSites : List Site :=
  ([site "keys/trusted" .plain "authentication/trustedKeys",
      site "master/enable" .truth "leader/enable", site "master/stratum" .integer "leader/stratum",
      site "master/source" .text "leader/source"] ++
    timeServerSites.map (.below ("server", "server"))) ++
  timeKeySites.map (.below ("keys/authentication", "authentication/authenticationKeys"))

theorem yields_ntp_made (values : FieldMap) :
    Yields (fun out => ∀ s ∈ ntpSites, s.Made values out) (ntp values) := by
  rw [ntp]
  refine (Yields.mapM_forall₂ fun server _ => yields_timeServer_made server).bind
      fun servers hservers =>
    (Yields.mapM_forall₂ fun key _ => yields_timeKey_made key).bind fun keys hkeys =>
    (yields_boolOr_carried _ _ _).bind fun leads hleads =>
    (yields_intOpt_carried _ _).bind fun stratum hstratum => .pure ?_
  have hapart : AllApart ["authentication/trustedKeys", "leader/enable", "leader/stratum",
      "leader/source"] := by
    decide
  have hserver : Path.Single "server" := by decide
  have hother : (Path.segments "authentication/authenticationKeys").head? ≠ some "server" := by
    decide
  refine made_setItems ((slashFree_assemble _).insert hserver (Field.slashFree_items _)) ?none
    (by decide) (made_listed (made_insert hserver (by decide) _
      (made_assemble hapart ?top)) (FieldMap.items_insert_self hserver servers) hservers) hkeys
  case none =>
    refine (FieldMap.field?_insert_of_head_ne hserver hother _ _).trans (field?_assemble_eq_none ?_)
    simp only [List.forall_mem_cons]
    decide
  case top =>
    simp only [List.forall_mem_cons]
    refine ⟨entered_site (carried_configured? _ _) ?_, entered_site hleads ?_,
      entered_site hstratum ?_, entered_site (carried_textOpt _ _) ?_, List.forall_mem_nil _⟩
    all_goals simp

def bfdColorSites : List Site :=
  [site "color" .plain "color", site "hello-interval" .integer "helloInterval",
    site "multiplier" .integer "multiplier", site "pmtu-discovery" .truth "pmtuDiscovery",
    site "dscp" .integer "dscp"]

theorem yields_bfdColor_made (color : FieldMap) :
    Yields (fun out => ∀ s ∈ bfdColorSites, s.Made color out) (bfdColor color) := by
  rw [bfdColor]
  refine (yields_required_carried _ _).bind fun name hname =>
    (yields_intOr_carried _ _ _).bind fun hello hhello =>
    (yields_intOr_carried _ _ _).bind fun multiplier hmultiplier =>
    (yields_boolOr_carried _ _ _).bind fun discovery hdiscovery =>
    (yields_intOr_carried _ _ _).bind fun dscp hdscp => .pure ?_
  have hapart : AllApart ["color", "helloInterval", "multiplier", "pmtuDiscovery", "dscp"] := by
    decide
  refine made_assemble hapart ?_
  simp only [bfdColorSites, List.forall_mem_cons]
  refine ⟨entered_site hname ?_, entered_site hhello ?_, entered_site hmultiplier ?_,
    entered_site hdiscovery ?_, entered_site hdscp ?_, List.forall_mem_nil _⟩
  all_goals simp

def bfdSites : List Site :=
  [site "app-route/multiplier" .integer "multiplier",
    site "app-route/poll-interval" .integer "pollInterval",
    site "default-dscp" .integer "defaultDscp"] ++
  bfdColorSites.map (.below ("color", "colors"))

theorem yields_bfd_made (values : FieldMap) :
    Yields (fun out => ∀ s ∈ bfdSites, s.Made values out) (bfd values) := by
  rw [bfd]
  refine (yields_intOr_carried _ _ _).bind fun multiplier hmultiplier =>
    (yields_intOr_carried _ _ _).bind fun poll hpoll =>
    (yields_intOr_carried _ _ _).bind fun dscp hdscp =>
    (Yields.mapM_forall₂ fun color _ => yields_bfdColor_made color).bind
      fun colors hcolors => .pure ?_
  have hpaths : AllApart ["multiplier", "pollInterval", "defaultDscp"] ∧
      ∀ path ∈ ["multiplier", "pollInterval", "defaultDscp"],
        (Path.segments path).head? ≠ some "colors" := by
    decide
  refine made_withItems_assemble hpaths.1 (by decide) hpaths.2 (by decide) ?_
    hcolors
  simp only [List.forall_mem_cons]
  refine ⟨entered_site hmultiplier ?_, entered_site hpoll ?_, entered_site hdscp ?_,
    List.forall_mem_nil _⟩
  all_goals simp

def ompSites : List Site :=
  [site "graceful-restart" .truth "gracefulRestart",
    site "graceful-restart-timer" .integer "gracefulRestartTimer",
    site "send-path-limit" .integer "sendPathLimit", site "ecmp-limit" .integer "ecmpLimit",
    site "shutdown" .truth "shutdown",
    site "advertisement-interval" .integer "advertisementInterval"]

theorem yields_omp_made (values : FieldMap) :
    Yields (fun out => ∀ s ∈ ompSites, s.Made values out) (omp values) := by
  rw [omp]
  refine (yields_boolOr_carried _ _ _).bind fun graceful hgraceful =>
    (yields_intOr_carried _ _ _).bind fun timer htimer =>
    (yields_intOr_carried _ _ _).bind fun paths hpaths =>
    (yields_intOr_carried _ _ _).bind fun ecmp hecmp =>
    (yields_boolOr_carried _ _ _).bind fun shutdown hshutdown =>
    (yields_intOr_carried _ _ _).bind fun interval hinterval =>
    Yields.bind_any fun advertised => .pure ?_
  -- The flags go into a group of their own
  have hapart : AllApart (["gracefulRestart", "gracefulRestartTimer", "sendPathLimit", "ecmpLimit",
      "shutdown", "advertisementInterval"] ++ overlayProtocols.map ("advertiseIpv4/" ++ ·)) := by
    decide
  refine made_assemble hapart ?_
  simp only [ompSites, List.forall_mem_cons]
  refine ⟨entered_site hgraceful ?_, entered_site htimer ?_, entered_site hpaths ?_,
    entered_site hecmp ?_, entered_site hshutdown ?_, entered_site hinterval ?_,
    List.forall_mem_nil _⟩
  all_goals simp

/-! ## VPNs and interfaces -/

def nextHopSites : List Site :=
  [site "address" .text "address", site "distance" .integer "distance"]

theorem yields_nextHop_made (hop : FieldMap) :
    Yields (fun out => ∀ s ∈ nextHopSites, s.Made hop out) (nextHop hop) := by
  rw [nextHop]
  refine (yields_textRequired_carried _ _).bind fun address haddress =>
    (yields_intOr_carried _ _ _).bind fun distance hdistance => .pure ?_
  have hapart : AllApart ["address", "distance"] := by decide
  refine made_assemble hapart ?_
  simp only [nextHopSites, List.forall_mem_cons]
  refine ⟨entered_site haddress ?_, entered_site hdistance ?_, List.forall_mem_nil _⟩
  all_goals simp

/-- The network that a route leads to. -/
def prefixSites : List Site :=
  [site "prefix" (.address "ip/route/prefix" .base) "prefix/address",
    site "prefix" (.mask "ip/route/prefix" .base) "prefix/mask"]

/-- The null interface is only read without next hops. -/
def nullSite : Site :=
  siteIf (fun route => (route.items "next-hop").isEmpty) "null0" .truth "oneOfIpRoute/null0"

def staticRouteSites : List Site :=
  (prefixSites ++ [nullSite]) ++
  nextHopSites.map (.below ("next-hop", "oneOfIpRoute/nextHopContainer/nextHop"))

theorem yields_staticRoute_made (route : FieldMap) :
    Yields (fun out => ∀ s ∈ staticRouteSites, s.Made route out) (staticRoute route) := by
  rw [staticRoute]
  refine (yields_required_configured _ _).bind fun network hnetwork =>
    (Yields.self _).bind fun parts hparts => ?_
  obtain ⟨address, mask⟩ := parts
  dsimp only
  have hsplit := carried_split hnetwork hparts
  have hapart : AllApart ["prefix/address", "prefix/mask"] := by decide
  have hfree := slashFree_assemble [("prefix/address", some address), ("prefix/mask", some mask)]
  have hprefix : ∀ s ∈ prefixSites, s.Made route
      (assemble [("prefix/address", some address), ("prefix/mask", some mask)]) := by
    refine made_assemble hapart ?_
    simp only [prefixSites, List.forall_mem_cons]
    refine ⟨entered_site hsplit.1 ?_, entered_site hsplit.2 ?_, List.forall_mem_nil _⟩
    all_goals simp
  cases hhops : (route.items "next-hop").isEmpty with
  | false =>
    refine (Yields.mapM_forall₂ fun hop _ => yields_nextHop_made hop).bind
      fun hops hmade => .pure ?_
    have hself := FieldMap.field?_set_self hfree "oneOfIpRoute/nextHopContainer/nextHop"
      (.items hops)
    refine made_listed (List.forall_mem_append.mpr ⟨?network, ?null⟩) ?hops hmade
    case network => exact made_set hfree (by decide) hprefix
    case null =>
      -- With next hops, the null interface is not read
      refine List.forall_mem_singleton.mpr (made_siteIf fun hdue => ?_)
      cases hhops.symm.trans hdue
    case hops => rw [FieldMap.items, hself]
  | true =>
    cases hnull : (route.value? "null0").isSome with
    | false => exact .error _
    | true =>
      refine (yields_boolOr_carried _ _ _).bind fun null hcarried => .pure ?_
      have hself := FieldMap.field?_set_self hfree "oneOfIpRoute/null0" (.value null)
      have hnone : (put (assemble [("prefix/address", some address), ("prefix/mask", some mask)])
          "oneOfIpRoute/null0" null).field? "oneOfIpRoute/nextHopContainer/nextHop" = none := by
        refine (FieldMap.field?_set_of_apart hfree (.value null) (by decide)).trans
          (field?_assemble_eq_none ?_)
        simp only [List.forall_mem_cons]
        decide
      have hmade : List.Forall₂ (fun hop out => ∀ s ∈ nextHopSites, s.Made hop out)
          (route.items "next-hop") [] := by
        rw [List.isEmpty_iff.mp hhops]
        exact .nil
      refine made_listed (List.forall_mem_append.mpr ⟨?network, ?null⟩) ?hops hmade
      case network => exact made_set hfree (by decide) hprefix
      case null =>
        refine List.forall_mem_singleton.mpr (made_siteIf fun _ => ?_)
        rw [FieldMap.value?, put, hself]
        exact hcarried
      case hops => rw [FieldMap.items, hnone]

/-- A name server is only read below its own group. -/
theorem yields_withNameServer_elsewhere (data dns : FieldMap) :
    Yields (fun made => ∀ path, (Path.segments path).head? ≠ some "dnsIpv4" →
      made.field? path = data.field? path) (withNameServer data dns) := by
  rw [withNameServer]
  refine Yields.bind_any fun v => .pure fun path hpath => ?_
  refine FieldMap.field?_set_of_head_ne fun heq => hpath (heq.symm.trans ?_)
  split
  · decide
  · decide

def vpnSites : List Site :=
  [site "vpn-id" .integer "vpnId", site "name" .text "name"] ++
  staticRouteSites.map (.below ("ip/route", "ipv4Route"))

theorem yields_vpn_made (values : FieldMap) :
    Yields (fun made => ∀ s ∈ vpnSites, s.Made values made.2) (vpn values) := by
  rw [vpn]
  refine (yields_intRequired_carried _ _).bind fun id hid => Yields.bind_any fun type => ?_
  have hapart : AllApart ["vpnId", "name"] := by decide
  have hroute : Path.Single "ipv4Route" := by decide
  have hservers : Yields (fun data => ∀ path, (Path.segments path).head? ≠ some "dnsIpv4" →
      FieldMap.field? data path =
        (assemble [("vpnId", some id), ("name", textOpt values "name")]).field? path)
      ((values.items "dns").foldlM withNameServer
        (assemble [("vpnId", some id), ("name", textOpt values "name")])) := by
    refine Yields.foldlM (fun dns _ data hdata => ?_) fun _ _ => rfl
    exact (yields_withNameServer_elsewhere data dns).mono fun made hmade path hpath =>
      (hmade path hpath).trans (hdata path hpath)
  refine hservers.bind fun data hdata =>
    (Yields.mapM_forall₂ fun route _ => yields_staticRoute_made route).bind
      fun routes hroutes => .pure ?_
  refine made_listed (made_withItems hroute (by decide) routes fun s hs => ?top)
    (items_withItems hroute ?free routes) hroutes
  case top =>
    have hentrances : ∀ s ∈ [site "vpn-id" .integer "vpnId", site "name" .text "name"],
        (Path.segments s.entrance).head? ≠ some "dnsIpv4" := by
      decide
    have hassembled : ∀ s ∈ [site "vpn-id" .integer "vpnId", site "name" .text "name"],
        s.Made values (assemble [("vpnId", some id), ("name", textOpt values "name")]) := by
      refine made_assemble hapart ?_
      simp only [List.forall_mem_cons]
      refine ⟨entered_site hid ?_, entered_site (carried_textOpt _ _) ?_, List.forall_mem_nil _⟩
      all_goals simp
    exact (hassembled s hs).congr (hdata _ (hentrances s hs))
  case free =>
    rw [← FieldMap.field?_of_single hroute, hdata _ (by decide)]
    refine field?_assemble_eq_none ?_
    simp only [List.forall_mem_cons]
    decide

/-- Whether an interface gets its address from a server. -/
def isDynamic (values : FieldMap) : Bool :=
  match boolOr values "ip/dhcp-client" false with
  | .ok v => v = .bool true
  | .error _ => false

/-- Whether an interface has an address of its own. -/
def isStatic (values : FieldMap) : Bool :=
  !isDynamic values && (configured? values "ip/address").isSome

/-- The address of an interface, or the distance of the server that it comes from. -/
def addressSites : List Site :=
  [siteIf isDynamic "ip/dhcp-distance" .integer "intfIpAddress/dynamic/dynamicDhcpDistance",
    siteIf isStatic "ip/address" (.address "ip/address" .host)
      "intfIpAddress/static/staticIpV4AddressPrimary/ipAddress",
    siteIf isStatic "ip/address" (.mask "ip/address" .host)
      "intfIpAddress/static/staticIpV4AddressPrimary/subnetMask"]

theorem yields_interfaceAddress_entered (values : FieldMap) :
    Yields (fun entries => (entries.map Prod.fst).Sublist (addressSites.map Site.target) ∧
      ∀ s ∈ addressSites, Entered entries values s) (interfaceAddress values) := by
  rw [interfaceAddress]
  refine (Yields.self _).bind fun dynamic hdynamic => ?_
  have hcase : isDynamic values = decide (dynamic = .bool true) := by rw [isDynamic, hdynamic]
  by_cases htrue : dynamic = .bool true
  · rw [if_pos htrue]
    have hyes : isDynamic values = true := by rw [hcase, decide_eq_true htrue]
    have hno : isStatic values = false := by rw [isStatic, hyes]; rfl
    refine (yields_intOr_carried _ _ _).bind fun distance hdistance => .pure ⟨?_, ?_⟩
    · simp [addressSites, siteIf]
    · simp only [addressSites, List.forall_mem_cons]
      refine ⟨entered_siteIf fun _ => ⟨some distance, by simp, hdistance⟩,
        entered_siteIf fun hdue => ?_, entered_siteIf fun hdue => ?_, List.forall_mem_nil _⟩
      · cases hno.symm.trans hdue
      · cases hno.symm.trans hdue
  · rw [if_neg htrue]
    have hno : isDynamic values = false := by rw [hcase, decide_eq_false htrue]
    cases hv : configured? values "ip/address" with
    | none =>
      have hnone : isStatic values = false := by
        rw [isStatic, hv, Option.isSome_none, Bool.and_false]
      refine .pure ⟨List.nil_sublist _, ?_⟩
      simp only [addressSites, List.forall_mem_cons]
      refine ⟨entered_siteIf fun hdue => ?_, entered_siteIf fun hdue => ?_,
        entered_siteIf fun hdue => ?_, List.forall_mem_nil _⟩
      · cases hno.symm.trans hdue
      · cases hnone.symm.trans hdue
      · cases hnone.symm.trans hdue
    | some v =>
      refine (Yields.self _).bind fun parts hparts => ?_
      obtain ⟨address, mask⟩ := parts
      have hsplit := carried_split hv hparts
      refine .pure ⟨?_, ?_⟩
      · simp [addressSites, siteIf]
      · simp only [addressSites, List.forall_mem_cons]
        refine ⟨entered_siteIf fun hdue => ?_,
          entered_siteIf fun _ => ⟨some address, by simp, hsplit.1⟩,
          entered_siteIf fun _ => ⟨some mask, by simp, hsplit.2⟩, List.forall_mem_nil _⟩
        cases hno.symm.trans hdue

/-- Whether an interface is the end of a tunnel. -/
def isTunnel (values : FieldMap) : Bool := values.has "tunnel-interface"

def tunnelSites : List Site :=
  [siteIf isTunnel "tunnel-interface/color" .plain "tunnel/color",
    siteIf isTunnel "nat" .truth "nat"]

theorem yields_interfaceTunnel_entered (values : FieldMap) :
    Yields (fun entries => (entries.map Prod.fst).Sublist
        ("tunnelInterface" :: tunnelSites.map Site.target) ∧
      ∀ s ∈ tunnelSites, Entered entries values s) (interfaceTunnel values) := by
  rw [interfaceTunnel]
  cases htunnel : values.has "tunnel-interface" with
  | true =>
    refine (yields_boolOr_carried _ _ _).bind fun nat hnat => .pure ⟨?_, ?_⟩
    · simp [tunnelSites, siteIf]
    · simp only [tunnelSites, List.forall_mem_cons]
      exact ⟨entered_siteIf fun _ => ⟨_, by simp, carried_textOr _ _ "default"⟩,
        entered_siteIf fun _ => ⟨some nat, by simp, hnat⟩, List.forall_mem_nil _⟩
  | false =>
    refine .pure ⟨?_, ?_⟩
    · simp [tunnelSites, siteIf]
    · simp only [tunnelSites, List.forall_mem_cons]
      refine ⟨entered_siteIf fun hdue => ?_, entered_siteIf fun hdue => ?_, List.forall_mem_nil _⟩
      · cases htunnel.symm.trans hdue
      · cases htunnel.symm.trans hdue

def ethernetSites : List Site :=
  [site "if-name" .text "interfaceName", site "description" .text "description",
    site "shutdown" .truth "shutdown", site "mtu" .integer "mtu"] ++ addressSites ++ tunnelSites

theorem Entered.append_left {more : List (String × Option TypedValue)}
    {entries : List (String × Option TypedValue)} {values : FieldMap} {s : Site}
    (h : Entered entries values s) : Entered (more ++ entries) values s :=
  ⟨h.1, fun hdue => (h.2 hdue).imp fun _ hmade => ⟨List.mem_append_right _ hmade.1, hmade.2⟩⟩

theorem Entered.append_right {more : List (String × Option TypedValue)}
    {entries : List (String × Option TypedValue)} {values : FieldMap} {s : Site}
    (h : Entered entries values s) : Entered (entries ++ more) values s :=
  ⟨h.1, fun hdue => (h.2 hdue).imp fun _ hmade => ⟨List.mem_append_left _ hmade.1, hmade.2⟩⟩

theorem yields_ethernet_made (values : FieldMap) :
    Yields (fun out => ∀ s ∈ ethernetSites, s.Made values out) (ethernet values) := by
  rw [ethernet]
  refine (yields_textRequired_carried _ _).bind fun name hname =>
    (yields_boolOr_carried _ _ _).bind fun shutdown hshutdown =>
    (yields_intOr_carried _ _ _).bind fun mtu hmtu =>
    (yields_interfaceAddress_entered values).bind fun address haddress =>
    (yields_interfaceTunnel_entered values).bind fun tunnel htunnel => .pure ?_
  have hapart : AllApart ((["interfaceName", "description", "shutdown", "mtu"] ++
      addressSites.map Site.target) ++ "tunnelInterface" :: tunnelSites.map Site.target) := by
    decide
  have hsublist : ((([("interfaceName", some name), ("description", textOpt values "description"),
      ("shutdown", some shutdown), ("mtu", some mtu)] ++ address) ++ tunnel).map Prod.fst).Sublist
      ((["interfaceName", "description", "shutdown", "mtu"] ++
        addressSites.map Site.target) ++ "tunnelInterface" :: tunnelSites.map Site.target) := by
    rw [List.map_append, List.map_append]
    exact ((List.Sublist.refl _).append haddress.1).append htunnel.1
  refine made_assemble (hapart.sublist (hsublist.map _)) ?_
  refine List.forall_mem_append.mpr ⟨List.forall_mem_append.mpr ⟨?fields, ?address⟩, ?tunnel⟩
  case fields =>
    refine fun s hs => Entered.append_right (Entered.append_right ?_)
    revert s hs
    simp only [List.forall_mem_cons]
    refine ⟨entered_site hname ?_, entered_site (carried_textOpt _ _) ?_,
      entered_site hshutdown ?_, entered_site hmtu ?_, List.forall_mem_nil _⟩
    all_goals simp
  case address => exact fun s hs => (haddress.2 s hs).append_left.append_right
  case tunnel => exact fun s hs => (htunnel.2 s hs).append_left

end Template

end ProfileMigration
