/-
  ProfileMigration.Template.System

  Feature templates of the system profile:

    basic, banner, logging, ntp, bfd, omp       -- the field trees of the parcels
    basicHints, bannerHints, …                  -- the declared kinds of their legacy fields
    tlocColors                                  -- the colours of transport locations

  This models `BasicConverter`, `BannerConverter`, `LoggingConverter`, `NtpConverter`,
  `BfdConverter` and `OmpConverter`.
-/
import ProfileMigration.Legacy.Hint
import ProfileMigration.Template.Reading

namespace ProfileMigration.Template

/-! ## Enumerations -/

/-- Speeds of the console line. -/
def baudRates : List String :=
  ["1200", "2400", "4800", "9600", "19200", "38400", "57600", "115200"]

/-- Severities of log messages, gravest first. -/
def logPriorities : List String :=
  ["emergency", "alert", "critical", "error", "warn", "notice", "informational", "debugging"]

/-- Colours of transport locations. -/
def tlocColors : List String :=
  ["default", "mpls", "metro-ethernet", "biz-internet", "public-internet", "lte", "3g", "red",
    "green", "blue", "gold", "silver", "bronze", "custom1", "custom2", "custom3", "private1",
    "private2", "private3", "private4", "private5", "private6"]

/-- Protocols whose routes the overlay can advertise. -/
def overlayProtocols : List String :=
  ["bgp", "ospf", "ospfv3", "connected", "static", "eigrp", "lisp", "isis"]

/-! ## Basic settings -/

def basicHints : Hints :=
  [("console-baud-rate", .enum baudRates), ("max-omp-sessions", .integer),
    ("controller-group-list", .integer), ("timezone", .text), ("location", .text),
    ("latitude", .float), ("longitude", .float)]

/-- Clock, console, tracking and position of a device. -/
def basic (values : FieldMap) : Converted FieldMap := do
  let sessions ← intOpt values "max-omp-sessions"
  let trackTransport ← boolOr values "track-transport" true
  let portHop ← boolOr values "port-hop" true
  let trackGateway ← boolOr values "track-default-gateway" true
  return assemble [
    ("clock/timezone", textOr values "timezone" "UTC"),
    ("consoleBaudRate", textOr values "console-baud-rate" "9600"),
    ("maxOmpSessions", sessions),
    ("trackTransport", trackTransport),
    ("portHop", portHop),
    ("trackDefaultGateway", trackGateway),
    ("controllerGroupList", configured? values "controller-group-list"),
    ("gpsLocation/location", textOpt values "location"),
    ("gpsLocation/latitude", configured? values "gps-location/latitude"),
    ("gpsLocation/longitude", configured? values "gps-location/longitude")]

/-! ## Banner -/

def bannerHints : Hints := [("login", .text), ("motd", .text)]

/-- The texts shown at login. -/
def banner (values : FieldMap) : Converted FieldMap :=
  return assemble [("login", textOr values "login" ""), ("motd", textOr values "motd" "")]

/-! ## Logging -/

def loggingHints : Hints :=
  [("priority", .enum logPriorities), ("vpn", .integer), ("size", .integer),
    ("rotate", .integer), ("source-interface", .text)]

/-- A log server. -/
def logServer (server : FieldMap) : Converted FieldMap := do
  let name ← textRequired server "name"
  let vpn ← intOr server "vpn" 0
  let encrypted ← boolOr server "tls-enable" false
  return assemble [
    ("name", name),
    ("vpn", vpn),
    ("sourceInterface", textOpt server "source-interface"),
    ("priority", textOr server "priority" "informational"),
    ("tlsEnable", encrypted)]

/-- Logging to disk and to servers. -/
def logging (values : FieldMap) : Converted FieldMap := do
  let enabled ← boolOr values "disk/enable" false
  let size ← intOr values "disk/file/size" 10
  let rotate ← intOr values "disk/file/rotate" 10
  let servers ← (values.items "server").mapM logServer
  return withItems
    (assemble [("disk/diskEnable", enabled), ("disk/file/diskFileSize", size),
      ("disk/file/diskFileRotate", rotate)])
    "server" servers

/-! ## Time servers -/

def ntpHints : Hints :=
  [("vpn", .integer), ("version", .integer), ("key", .integer), ("number", .integer),
    ("stratum", .integer), ("trusted", .integer), ("md5", .text)]

/-- A time server. -/
def timeServer (server : FieldMap) : Converted FieldMap := do
  let name ← textRequired server "name"
  let vpn ← intOr server "vpn" 0
  let version ← intOr server "version" 4
  let key ← intOpt server "key"
  let preferred ← boolOr server "prefer" false
  return assemble [
    ("name", name),
    ("vpn", vpn),
    ("version", version),
    ("key", key),
    ("sourceInterface", textOpt server "source-interface"),
    ("preferCorrespondingServer", preferred)]

/-- A key that time servers authenticate with. -/
def timeKey (key : FieldMap) : Converted FieldMap := do
  let number ← intRequired key "number"
  let secret ← textRequired key "md5"
  return assemble [("keyId", number), ("md5Value", secret)]

/-- Time servers, their keys, and whether the device leads. -/
def ntp (values : FieldMap) : Converted FieldMap := do
  let servers ← (values.items "server").mapM timeServer
  let keys ← (values.items "keys/authentication").mapM timeKey
  let leads ← boolOr values "master/enable" false
  let stratum ← intOpt values "master/stratum"
  let data := assemble [
    ("authentication/trustedKeys", configured? values "keys/trusted"),
    ("leader/enable", leads),
    ("leader/stratum", stratum),
    ("leader/source", textOpt values "master/source")]
  let data := Keyed.insert "server" (.items servers) data
  return if keys.isEmpty then data
    else FieldMap.set data "authentication/authenticationKeys" (.items keys)

/-! ## Forwarding detection -/

def bfdHints : Hints :=
  [("color", .enum tlocColors), ("multiplier", .integer), ("poll-interval", .integer),
    ("default-dscp", .integer), ("hello-interval", .integer), ("dscp", .integer)]

/-- Detection on the transport locations of one colour. -/
def bfdColor (color : FieldMap) : Converted FieldMap := do
  let name ← required color "color"
  let hello ← intOr color "hello-interval" 1000
  let multiplier ← intOr color "multiplier" 7
  let discovery ← boolOr color "pmtu-discovery" true
  let dscp ← intOr color "dscp" 48
  return assemble [("color", name), ("helloInterval", hello), ("multiplier", multiplier),
    ("pmtuDiscovery", discovery), ("dscp", dscp)]

/-- Bidirectional forwarding detection. -/
def bfd (values : FieldMap) : Converted FieldMap := do
  let multiplier ← intOr values "app-route/multiplier" 6
  let poll ← intOr values "app-route/poll-interval" 600000
  let dscp ← intOr values "default-dscp" 48
  let colors ← (values.items "color").mapM bfdColor
  return withItems
    (assemble [("multiplier", multiplier), ("pollInterval", poll), ("defaultDscp", dscp)])
    "colors" colors

/-! ## Overlay management -/

def ompHints : Hints :=
  [("graceful-restart-timer", .integer), ("send-path-limit", .integer), ("ecmp-limit", .integer),
    ("advertisement-interval", .integer), ("protocol", .enum overlayProtocols)]

/-- The protocol that an entry advertises. -/
def advertisedProtocol (entry : FieldMap) : Converted String := do
  let protocol ← fixedText entry "protocol" "advertise/protocol"
  if protocol ∈ overlayProtocols then .ok protocol
  else .error (.unsupported "advertise/protocol" ("unknown protocol '" ++ protocol ++ "'"))

/-- The overlay management protocol; the list of advertised protocols becomes one flag for
    each protocol. -/
def omp (values : FieldMap) : Converted FieldMap := do
  let graceful ← boolOr values "graceful-restart" true
  let timer ← intOr values "graceful-restart-timer" 43200
  let paths ← intOr values "send-path-limit" 4
  let ecmp ← intOr values "ecmp-limit" 4
  let shutdown ← boolOr values "shutdown" false
  let interval ← intOr values "advertisement-interval" 1
  let advertised ← (values.items "advertise").mapM advertisedProtocol
  let settings : List (String × Option TypedValue) := [
    ("gracefulRestart", graceful),
    ("gracefulRestartTimer", timer),
    ("sendPathLimit", paths),
    ("ecmpLimit", ecmp),
    ("shutdown", shutdown),
    ("advertisementInterval", interval)]
  let flags := overlayProtocols.map fun protocol =>
    ("advertiseIpv4/" ++ protocol, some (TypedValue.bool (advertised.contains protocol)))
  return assemble (settings ++ flags)

end ProfileMigration.Template
