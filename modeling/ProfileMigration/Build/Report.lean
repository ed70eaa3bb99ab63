/-
  ProfileMigration.Build.Report

  What became of the parcels of one profile:

    CreatedItem / FailedItem    -- a parcel the manager took, and one it did not
    BuildReport                 -- both lists, in order, for a created profile
    BuildReport.withCreated / withFailed / withRefused -- one more outcome
    BuildReport.remoteIds       -- the remote identifiers of what was created
    BuildReport.text            -- the report for people
    BuildReport.toJson / ofDocument

  This models `BuildReport`: `record_created`, `record_failed`, `record_transport`, `remote_ids`
  and its display.
-/
import ProfileMigration.Manager.Call
import ProfileMigration.Parcel.Basic

namespace ProfileMigration

/-- A parcel that the manager took. -/
structure CreatedItem where
  name : String
  type : ParcelType
  /-- The identifier that the manager gave it. -/
  id : Uuid
  /-- The identifier generated in conversion. -/
  origin : Option Uuid
deriving DecidableEq

/-- A parcel that was not created, or not put under its parent, and what was said about it. -/
structure FailedItem where
  name : String
  type : ParcelType
  error : String
  request : Option Json
  response : Option Json
deriving DecidableEq

/-- The outcome of building one profile. -/
structure BuildReport where
  profileName : String
  profileType : ProfileType
  profileId : Uuid
  created : List CreatedItem
  failed : List FailedItem
deriving DecidableEq

namespace CreatedItem

def toJson (c : CreatedItem) : Json :=
  .obj ([("name", .str c.name), ("parcel_type", c.type.toJson), ("id", .str c.id.text)] ++
    Wire.member? "origin" (c.origin.map fun id => .str id.text))

def ofDocument : Wire.Reader CreatedItem :=
  Wire.record "CreatedItem" 4 fun row =>
    CreatedItem.mk <$> row.required 0 "name" Wire.text
      <*> row.required 1 "parcel_type" ParcelType.ofDocument <*> row.required 2 "id" Wire.uuid
      <*> row.optional 3 "origin" Wire.uuid

end CreatedItem

namespace FailedItem

def toJson (f : FailedItem) : Json :=
  .obj ([("name", .str f.name), ("parcel_type", f.type.toJson), ("error", .str f.error)] ++
    Wire.member? "request" f.request ++ Wire.member? "response" f.response)

/-- Reads the wire form; a request or response of null counts as none. -/
def ofDocument : Wire.Reader FailedItem :=
  Wire.record "FailedItem" 5 fun row =>
    FailedItem.mk <$> row.required 0 "name" Wire.text
      <*> row.required 1 "parcel_type" ParcelType.ofDocument <*> row.required 2 "error" Wire.text
      <*> row.optional 3 "request" Wire.json <*> row.optional 4 "response" Wire.json

end FailedItem

namespace BuildReport

/-- A report on a profile in which nothing has been tried. -/
def start (name : String) (type : ProfileType) (id : Uuid) : BuildReport := ⟨name, type, id, [], []⟩

/-- Adds a created parcel. -/
def withCreated (r : BuildReport) (name : String) (type : ParcelType) (id : Uuid)
    (origin : Option Uuid) : BuildReport :=
  { r with created := r.created ++ [⟨name, type, id, origin⟩] }

/-- Adds a parcel that was never sent. -/
def withFailed (r : BuildReport) (name : String) (type : ParcelType) (error : String) :
    BuildReport :=
  { r with failed := r.failed ++ [⟨name, type, error, none, none⟩] }

/-- Adds a parcel whose call failed, with what was sent and what came back. -/
def withRefused (r : BuildReport) (name : String) (type : ParcelType) (e : TransportError) :
    BuildReport :=
  { r with failed := r.failed ++ [⟨name, type, e.message, e.request, e.response⟩] }

/-- The remote identifiers of the created parcels, latest first. -/
def remoteIds (r : BuildReport) : RemoteIds :=
  (r.created.filterMap fun c => c.origin.map fun origin => (origin, c.id)).reverse

/-- Whether nothing failed. -/
def isClean (r : BuildReport) : Bool := r.failed.isEmpty

/-- Where the profile is found. -/
def profilePath (r : BuildReport) : String := r.profileType.profilePath r.profileId

/-! ## For people -/

/-- The heading of the report. -/
def heading (r : BuildReport) : String :=
  r.profileType.tag ++ " profile '" ++ r.profileName ++ "' (" ++ r.profileId.text ++ "): " ++
    toString r.created.length ++ " created, " ++ toString r.failed.length ++ " failed"

/-- The line of a created parcel. -/
def createdLine (c : CreatedItem) : String :=
  "  + " ++ c.name ++ " [" ++ c.type.tag ++ "] " ++ c.id.text

/-- The line of a failed parcel. -/
def failedLine (f : FailedItem) : String :=
  "  ! " ++ f.name ++ " [" ++ f.type.tag ++ "] " ++ f.error

/-- The lines of the report. -/
def lines (r : BuildReport) : List String :=
  r.heading :: r.created.map createdLine ++ r.failed.map failedLine

/-- The report, every line ended. -/
def text (r : BuildReport) : String := String.join (r.lines.map (· ++ "\n"))

/-! ## Wire form -/

def toJson (r : BuildReport) : Json :=
  .obj [("profile_name", .str r.profileName), ("profile_type", r.profileType.toJson),
    ("profile_id", .str r.profileId.text), ("created", Wire.ofList CreatedItem.toJson r.created),
    ("failed", Wire.ofList FailedItem.toJson r.failed)]

def ofDocument : Wire.Reader BuildReport :=
  Wire.record "BuildReport" 5 fun row =>
    BuildReport.mk <$> row.required 0 "profile_name" Wire.text
      <*> row.required 1 "profile_type" ProfileType.ofDocument
      <*> row.required 2 "profile_id" Wire.uuid
      <*> row.required 3 "created" (Wire.list CreatedItem.ofDocument)
      <*> row.required 4 "failed" (Wire.list FailedItem.ofDocument)

end BuildReport

end ProfileMigration
