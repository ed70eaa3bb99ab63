/-
  ProfileMigration.Collection.Reading

  Reading the legacy configuration, list by list:

    Collection.Reading  -- a part of a collection: it goes on, or the collection ends with it
    Collection.check    -- ends a collection that is to stop, with what has been read
    Collection.listed   -- the rows of a list
    Collection.detailed -- a list with the details of its rows
    Collection.features / devices / lists / policies
    collect             -- the four lists in order

  Whether to stop is looked at before every list and at every row with a detail of its own, also
  where nothing is asked for the row. A list that cannot be read fails the whole collection,
  while an object that cannot be read is recorded and left out.

  This models `collect_tree`, with `list`, `parse` and `attachment`; `Collection.check` models
  `stopped`, at each place where that is called.
-/
import ProfileMigration.Collection.Row
import ProfileMigration.Manager.Session

namespace ProfileMigration

namespace Collection

/-! ## Paths -/

/-- The list of feature templates. -/
def featureTemplates : String := "/template/feature"

/-- The list of device templates. -/
def deviceTemplates : String := "/template/device"

/-- The list of policy lists, which carry their entries. -/
def policyLists : String := "/template/policy/list"

/-- The list of route policies. -/
def routePolicies : String := "/template/policy/definition/vedgeroute"

/-- The path of a feature template. -/
def featurePath (row : Summary) : String := featureTemplates ++ "/object/" ++ row.id

/-- The path of a device template. -/
def devicePath (row : DeviceSummary) : String := deviceTemplates ++ "/object/" ++ row.id

/-- The path of a route policy. -/
def policyPath (row : Summary) : String := routePolicies ++ "/" ++ row.id

/-! ## Answers -/

/-- Reads an answer as a typed value. -/
def decode {α : Type} (read : Wire.Reader α) (path : String) (answer : Json) :
    Except TransportError α :=
  match Wire.read read answer with
  | .ok a => .ok a
  | .error fault => .error (.malformed path fault.message answer)

/-- Records an object that cannot be read. -/
def withFailure (tree : CollectedTree) (id name : String) (e : TransportError) : CollectedTree :=
  { tree with failures := tree.failures ++ [⟨id, name, e.message⟩] }

/-- A member of an answer, or all of it. -/
def memberOr (key : String) (answer : Json) : Json := (answer.get? key).getD answer

/-- Adds a feature template. -/
def addFeature (tree : CollectedTree) (row : Summary) :
    Except TransportError Json → CollectedTree
  | .error e => withFailure tree row.id row.name e
  | .ok answer =>
    { tree with
      featureTemplates := tree.featureTemplates ++
        [row.object .featureTemplate (memberOr "templateDefinition" answer)] }

/-- Adds a device template. The description of the row counts before that of the detail. -/
def addDevice (tree : CollectedTree) (row : DeviceSummary)
    (answer : Except TransportError Json) : CollectedTree :=
  match answer.bind (decode deviceDetail (devicePath row)) with
  | .error e => withFailure tree row.id row.name e
  | .ok detail =>
    { tree with
      deviceTemplates := tree.deviceTemplates ++
        [⟨row.id, row.name, row.description.or detail.description, detail.templates⟩] }

/-- A text member of a row that may not be a proper one. -/
def textMember (key : String) (row : Json) : String := ((row.get? key).bind Json.text?).getD ""

/-- Adds a policy list. -/
def addList (tree : CollectedTree) (row : Json) : CollectedTree :=
  match decode policyList policyLists row with
  | .error e => withFailure tree (textMember "listId" row) (textMember "name" row) e
  | .ok summary =>
    { tree with policyLists := tree.policyLists ++ [summary.object .policyList row] }

/-- Adds a route policy. -/
def addPolicy (tree : CollectedTree) (row : Summary) :
    Except TransportError Json → CollectedTree
  | .error e => withFailure tree row.id row.name e
  | .ok answer =>
    { tree with
      policyDefinitions := tree.policyDefinitions ++
        [row.object .policyDefinition (memberOr "definition" answer)] }

/-! ## Parts of a collection -/

/-- A part of a collection. It gives something to go on with, or ends the collection in an error
    or with the tree that has been read so far. -/
abbrev Reading (σ : Type) : Type → Type :=
  ExceptT (Except TransportError CollectedTree) (StateM (Session σ))

section

variable {σ α : Type} (m : Manager σ) (tree : CollectedTree)

/-- Asked to stop, the collection ends with the tree, which is marked as incomplete. -/
def check : Reading σ Unit := do
  if m.stopped (← get).state then throw (.ok { tree with cancelled := true })

/-- Reads at a path. -/
def read (path : String) : Reading σ (Except TransportError Json) :=
  modifyGet (m.ask (.read path))

/-- The rows of a list. -/
def listed (path : String) (row : Wire.Reader α) : Reading σ (List α) := do
  match (← read m path).bind (decode (rows row) path) with
  | .ok found => return found
  | .error e => throw (.error e)

/-- Reads the detail of a row and adds it to the tree, unless the row is passed over. -/
def detail (path : α → String) (passed : α → Bool)
    (add : CollectedTree → α → Except TransportError Json → CollectedTree) (row : α) :
    Reading σ CollectedTree := do
  check m tree
  if passed row then return tree
  return add tree row (← read m (path row))

/-- Reads a list and the details of its rows, one after the other. -/
def detailed (list : String) (row : Wire.Reader α) (path : α → String) (passed : α → Bool)
    (add : CollectedTree → α → Except TransportError Json → CollectedTree) :
    Reading σ CollectedTree := do
  check m tree
  let found ← listed m list row
  List.foldlM (fun tree row => detail m tree path passed add row) tree found

/-- Reads the feature templates. -/
def features : Reading σ CollectedTree :=
  detailed m tree featureTemplates featureTemplate featurePath (fun _ => false) addFeature

/-- Reads the device templates. Nothing is asked for one that is a text of commands. -/
def devices : Reading σ CollectedTree :=
  detailed m tree deviceTemplates deviceTemplate devicePath DeviceSummary.isFile addDevice

/-- Reads the policy lists, which have no details. -/
def lists : Reading σ CollectedTree := do
  check m tree
  return (← listed m policyLists Wire.json).foldl addList tree

/-- Reads the route policies. -/
def policies : Reading σ CollectedTree :=
  detailed m tree routePolicies policyDefinition policyPath (fun _ => false) addPolicy

/-- Reads everything. -/
def everything : Reading σ CollectedTree := do
  policies m (← lists m (← devices m (← features m tree)))

end

end Collection

/-- Reads the legacy configuration. -/
def collect {σ : Type} (m : Manager σ) (now : Instant) (s : Session σ) :
    Except TransportError CollectedTree × Session σ :=
  match (Collection.everything m (.empty now)).run.run s with
  | (.ok tree, s) => (.ok tree, s)
  | (.error ending, s) => (ending, s)

end ProfileMigration
