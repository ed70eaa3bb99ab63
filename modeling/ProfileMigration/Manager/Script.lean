/-
  ProfileMigration.Manager.Script

  A manager that answers from a script, for rehearsing a run:

    Condition / Outcome / Rule  -- what to do on which calls
    Script                      -- answers to reads, and rules in order
    Script.Rehearsal            -- how often each rule matched, how many objects were made up
    Script.manager              -- the manager
    Script.ofJson               -- a script as it is written

  The first rule that fires and decides wins. Without one, reads find what the script lists,
  creations get made-up identifiers in turn, replacements echo their body, and deletions
  succeed.

  It stands where `ManagerClient` does, as the mock transport of the tests does.
-/
import ProfileMigration.Manager.Session

namespace ProfileMigration

/-- Which calls a rule is about: all of its parts must hold. -/
structure Condition where
  method : Option String
  /-- The whole path. -/
  path : Option String
  /-- Part of the path. -/
  contains : Option String
  /-- The name in the body. -/
  name : Option String
  /-- A key of the body. -/
  has : Option String
deriving DecidableEq

/-- What a rule does. -/
inductive Outcome where
  /-- Asks the run to stop, and leaves the answer to later rules. -/
  | stop
  | reply (answer : Json)
  | status (code : UInt16) (body : String)
  | malformed (reason : String) (response : Json)
  | unreachable
deriving DecidableEq

/-- A rule of a script. -/
structure Rule where
  condition : Condition
  /-- If given, only this match of the rule counts, the first being 1. -/
  turn : Option Nat
  outcome : Outcome
deriving DecidableEq

/-- What a manager answers. -/
structure Script where
  reads : List (String × Json)
  rules : List Rule
deriving DecidableEq

namespace Condition

/-- Whether one list of characters stands somewhere in another. -/
def occursIn (part : List Char) : List Char → Bool
  | [] => part.isEmpty
  | c :: cs => part.isPrefixOf (c :: cs) || occursIn part cs

/-- Whether a condition holds, where there is one. -/
def holds {α : Type} (part : Option α) (test : α → Bool) : Bool := (part.map test).getD true

/-- Whether a call meets a condition. -/
def meets (c : Condition) (call : Call) : Bool :=
  let named := fun name => (call.body.bind (Json.get? "name")) = some (.str name)
  let keyed := fun key => (call.body.bind (Json.get? key)).isSome
  holds c.method (call.method.text = ·) && holds c.path (call.path = ·) &&
    holds c.contains (fun part => occursIn part.toList call.path.toList) &&
    holds c.name (fun name => named name) && holds c.has keyed

end Condition

namespace Script

/-- What has happened in a rehearsal. -/
structure Rehearsal where
  /-- How often each rule has matched. -/
  counts : List Nat
  /-- How many creations have been answered without a rule. -/
  created : Nat
  stopped : Bool
deriving DecidableEq

/-- Nothing has happened. -/
def Rehearsal.start (script : Script) : Rehearsal := ⟨script.rules.map fun _ => 0, 0, false⟩

/-- The answer that an outcome gives, if it decides. -/
def decided (call : Call) : Outcome → Option (Except TransportError Json)
  | .stop => none
  | .reply answer => some (.ok answer)
  | .status code body => some (.error (.status call.method.text call.path code call.body body))
  | .malformed reason response => some (.error (.malformed call.path reason response))
  | .unreachable =>
    some (.error (.unreachable call.method.text call.path
      "builder error: relative URL without a base"))

/-- Tries rules in order, with how often each has matched before: the answer if one decides,
    the new counts, and whether one asked the run to stop. -/
def tryRules (call : Call) : List Rule → List Nat →
    Option (Except TransportError Json) × List Nat × Bool
  | [], counts => (none, counts, false)
  | _, [] => (none, [], false)
  | rule :: rules, count :: counts =>
    if rule.condition.meets call then
      -- The match counts whether or not it is the turn of the rule
      let fires := Condition.holds rule.turn (· = count + 1)
      match if fires then decided call rule.outcome else none with
      | some answer => (some answer, (count + 1) :: counts, false)
      | none =>
        let (answer, counts, stopped) := tryRules call rules counts
        (answer, (count + 1) :: counts, stopped || (fires && rule.outcome = .stop))
    else
      let (answer, counts, stopped) := tryRules call rules counts
      (answer, count :: counts, stopped)

/-- The made-up identifier of a created object. -/
def madeUpId (n : Nat) : Uuid := ⟨0x00000000_0000_4000_8000_000000000000#128 + BitVec.ofNat 128 n⟩

/-- The answer without a rule, and the number of created objects after it. -/
def plainAnswer (script : Script) (call : Call) (created : Nat) :
    Except TransportError Json × Nat :=
  match call.method with
  | .get =>
    match script.reads.lookup call.path with
    | some answer => (.ok answer, created)
    | none => (.error (.status call.method.text call.path 404 none ""), created)
  | .post => (.ok (.obj [("id", .str (madeUpId (created + 1)).text)]), created + 1)
  | .put => (.ok (.ofOption call.body), created)
  | .delete => (.ok .null, created)

/-- One call in a rehearsal. -/
def answer (script : Script) (call : Call) (r : Rehearsal) :
    Except TransportError Json × Rehearsal :=
  let (decision, counts, stop) := tryRules call script.rules r.counts
  let stopped := r.stopped || stop
  match decision with
  | some answer => (answer, ⟨counts, r.created, stopped⟩)
  | none =>
    let (answer, created) := plainAnswer script call r.created
    (answer, ⟨counts, created, stopped⟩)

/-- The manager that a script describes. -/
def manager (script : Script) : Manager Rehearsal := ⟨script.answer, Rehearsal.stopped⟩

/-! ## Written form -/

/-- The text of a member. -/
def textIn (j : Json) (key : String) : Option String := (j.get? key).bind Json.text?

/-- The natural number of a member. -/
def countIn (j : Json) (key : String) : Option Nat :=
  match j.get? key with
  | some (.num (.int n)) => if 0 ≤ n.val then some n.val.toNat else none
  | _ => none

/-- The outcome that the first of the known members names. -/
def outcomeOf (j : Json) : Outcome :=
  if (j.get? "cancel").isSome then .stop
  else match j.get? "reply" with
    | some answer => .reply answer
    | none =>
      match countIn j "status" with
      | some code => .status (UInt16.ofNat code) ((textIn j "body").getD "")
      | none =>
        match textIn j "malformed" with
        | some reason => .malformed reason ((j.get? "response").getD .null)
        | none => .unreachable

/-- A rule as it is written. -/
def ruleOf (j : Json) : Rule where
  condition := ⟨textIn j "method", textIn j "path", textIn j "contains", textIn j "name",
    textIn j "has"⟩
  turn := countIn j "nth"
  outcome := outcomeOf j

/-- A script as it is written: an object of answers under `gets` and a list under `rules`. -/
def ofJson (j : Json) : Script where
  reads := ((j.get? "gets").bind Json.members?).getD []
  rules := (((j.get? "rules").bind Json.elements?).getD []).map ruleOf

end Script

end ProfileMigration
