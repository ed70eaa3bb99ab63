/-
  ProfileMigration.Build.Draft

  A profile and its parcels, waiting to be created:

    Draft               -- what to create: parcels on their own, parents, children
    Build               -- a build under way: the session, the known identifiers, the report
    Build.create        -- one parcel
    Build.child         -- one child, created under its parent or bound to it
    Draft.buildNamed    -- the whole profile, given its name
    Draft.build         -- the same, if the draft has a name

  Parcels on their own go first, then each parent with its children. A parcel that fails is
  reported and the build goes on; only the children of a failed parent are not tried.

  `Draft` models `ProfileBuilder`, whose `add_parcel`, `add_parent` and `add_parcel_with_parent`
  fill it, and `Draft.build` its `build`; `Build` models `BuildRun`, with `create` and
  `create_child`.
-/
import ProfileMigration.Build.Report
import ProfileMigration.Manager.Failure
import ProfileMigration.Manager.Session

namespace ProfileMigration

/-- What ties children to their parent before either exists. -/
inductive Tag where
  | id (id : Uuid)
  /-- A tag of its own for a parent without an identifier, by its place. -/
  | place (n : Nat)
deriving DecidableEq

/-- A profile waiting to be created. -/
structure Draft where
  type : ProfileType
  header : Option ProfileHeader
  /-- The identifiers of what earlier builds created. -/
  remoteIds : RemoteIds
  parcels : List Parcel
  parents : List (Tag × Parcel)
  children : List (Tag × Parcel)

/-- A build that is under way. -/
structure Build (σ : Type) where
  session : Session σ
  ids : RemoteIds
  report : BuildReport

namespace Build

variable {σ : Type}

/-- The path of parcels of a type below a profile or a parent. -/
def pathBelow (base : String) (type : ParcelType) : String := base ++ "/" ++ type.tag

/-- Reports a parcel that is not sent. -/
def fail (b : Build σ) (p : Parcel) (error : String) : Build σ :=
  { b with report := b.report.withFailed p.name p.type error }

/-- Reports a parcel whose call failed. -/
def refuse (b : Build σ) (p : Parcel) (e : TransportError) : Build σ :=
  { b with report := b.report.withRefused p.name p.type e }

/-- Reports a created parcel; later parcels can refer to it. -/
def accept (b : Build σ) (p : Parcel) (id : Uuid) : Build σ where
  session := b.session
  ids := match p.id with
    | some origin => b.ids.assign origin id
    | none => b.ids
  report := b.report.withCreated p.name p.type id p.id

/-- Creates a parcel at a path, and gives its remote identifier. A parcel that refers to
    something without a remote identifier is not sent. -/
def create (m : Manager σ) (path : String) (p : Parcel) (b : Build σ) : Option Uuid × Build σ :=
  match p.request b.ids with
  | .error unbound => (none, b.fail p ("reference " ++ unbound.text ++ " was not created"))
  | .ok body =>
    let (answer, session) := m.ask (.create path body) b.session
    let b := { b with session := session }
    match answer with
    | .error e => (none, b.refuse p e)
    | .ok response =>
      match createdId response with
      | none => (none, b.refuse p (.malformed path "no parcel id in response" response))
      | some id => (some id, b.accept p id)

/-- Creates a parcel in the profile itself. -/
def createTop (m : Manager σ) (p : Parcel) (b : Build σ) : Option Uuid × Build σ :=
  b.create m (pathBelow b.report.profilePath p.type) p

/-- Binds a parcel to a parent. The parcel stays where it is if that fails. -/
def associate (m : Manager σ) (parentPath : String) (p : Parcel) (id : Uuid) (b : Build σ) :
    Build σ :=
  let (answer, session) := m.ask
    (.create (pathBelow parentPath p.type) (.obj [("parcelId", .str id.text)])) b.session
  let b := { b with session := session }
  match answer with
  | .ok _ => b
  | .error e => b.refuse p e

/-- Creates a child of a parent. -/
def child (m : Manager σ) (parentPath : String) (b : Build σ) (p : Parcel) : Build σ :=
  match p.type.childMode with
  | .nested => (b.create m (pathBelow parentPath p.type) p).2
  | .associate =>
    match b.createTop m p with
    | (some id, b) => b.associate m parentPath p id
    | (none, b) => b

/-- Creates a parent and then its children. -/
def family (m : Manager σ) (parent : Parcel) (children : List Parcel) (b : Build σ) : Build σ :=
  match b.createTop m parent with
  | (some id, b) =>
    let path := pathBelow b.report.profilePath parent.type ++ "/" ++ id.text
    children.foldl (child m path) b
  | (none, b) =>
    children.foldl (fun b p => b.fail p ("parent '" ++ parent.name ++ "' was not created")) b

/-- Creates parents in order, each with the children that bear its tag and are not yet taken;
    children that are left have no parent. -/
def families (m : Manager σ) : List (Tag × Parcel) → List (Tag × Parcel) → Build σ → Build σ
  | [], children, b =>
    children.foldl (fun b (_, p) => b.fail p "no parent queued under its tag") b
  | (tag, parent) :: parents, children, b =>
    -- Of several parents with one tag the first takes the children
    let (mine, others) := children.partition fun (t, _) => t = tag
    families m parents others (b.family m parent (mine.map (·.2)))

end Build

namespace Draft

variable {σ : Type}

/-- A draft with nothing in it. -/
def empty (type : ProfileType) : Draft := ⟨type, none, [], [], [], []⟩

/-- The body to create the profile with. -/
def profileBody (header : ProfileHeader) : Json :=
  .obj (Wire.member? "description" (header.description.map .str) ++ [("name", .str header.name)])

/-- Creates a profile, and gives its identifier. -/
def createProfile (m : Manager σ) (type : ProfileType) (header : ProfileHeader) (s : Session σ) :
    Except TransportError Uuid × Session σ :=
  match m.ask (.create type.collectionPath (profileBody header)) s with
  | (.error e, s) => (.error e, s)
  | (.ok response, s) =>
    match createdId response with
    | some id => (.ok id, s)
    | none =>
      (.error (.malformed type.collectionPath "no profile id in response" response), s)

/-- Creates everything in the profile. -/
def buildParcels (m : Manager σ) (d : Draft) (b : Build σ) : Build σ :=
  Build.families m d.parents d.children
    (d.parcels.foldl (fun b p => (b.createTop m p).2) b)

/-- Creates the profile and everything in it. Nothing else is asked if the profile itself is
    not created. -/
def buildNamed (m : Manager σ) (d : Draft) (header : ProfileHeader) (s : Session σ) :
    Except TransportError BuildReport × Session σ :=
  match createProfile m d.type header s with
  | (.error e, s) => (.error e, s)
  | (.ok id, s) =>
    let b := buildParcels m d ⟨s, d.remoteIds, .start header.name d.type id⟩
    (.ok b.report, b.session)

/-- Creates the profile and everything in it, if it has a name. -/
def build (m : Manager σ) (d : Draft) (s : Session σ) :
    Except MigrationError BuildReport × Session σ :=
  match d.header with
  | none => (.error (.misuse .draftWithoutName), s)
  | some header =>
    match d.buildNamed m header s with
    | (.error e, s) => (.error (.transport e), s)
    | (.ok report, s) => (.ok report, s)

end Draft

end ProfileMigration
