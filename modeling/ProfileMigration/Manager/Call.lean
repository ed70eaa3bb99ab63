/-
  ProfileMigration.Manager.Call

  Calls to the manager and what can go wrong with one:

    Call                -- method, path and body
    TransportError      -- no answer, a refusal, or an answer that cannot be used
    TransportError.message / request / response
    createdId           -- the identifier in the answer to a creation

  This models `TransportError` with `request` and `response`, and `created_id`; a call is one use
  of the four operations of `Transport`.
-/
import ProfileMigration.Identity.Uuid
import ProfileMigration.Json.Parser
import ProfileMigration.Json.Printer

namespace ProfileMigration

/-- What a call does. -/
inductive Method where
  | get
  | post
  | put
  | delete
deriving DecidableEq, Repr

/-- The name of a method. -/
def Method.text : Method → String
  | get => "GET"
  | post => "POST"
  | put => "PUT"
  | delete => "DELETE"

/-- A call to the manager. -/
structure Call where
  method : Method
  path : String
  body : Option Json
deriving DecidableEq

namespace Call

/-- Reads an object or a list. -/
def read (path : String) : Call := ⟨.get, path, none⟩

/-- Creates an object. -/
def create (path : String) (body : Json) : Call := ⟨.post, path, some body⟩

/-- Replaces an object. -/
def update (path : String) (body : Json) : Call := ⟨.put, path, some body⟩

/-- Deletes an object. -/
def delete (path : String) : Call := ⟨.delete, path, none⟩

end Call

/-- What can go wrong with a call. -/
inductive TransportError where
  /-- No answer came; the cause is told by whoever carries the call. -/
  | unreachable (method path cause : String)
  /-- The manager refused. -/
  | status (method path : String) (code : UInt16) (request : Option Json) (body : String)
  /-- The answer is not what the call asks for. -/
  | malformed (path reason : String) (response : Json)
deriving DecidableEq

namespace TransportError

/-- The words for a failed call. -/
def message : TransportError → String
  | unreachable method path cause => method ++ " " ++ path ++ " failed: " ++ cause
  | status method path code _ body =>
    method ++ " " ++ path ++ " returned " ++ toString code.toNat ++ ": " ++ body
  | malformed path reason _ => "malformed response from " ++ path ++ ": " ++ reason

/-- The body that was refused, when there was one. -/
def request : TransportError → Option Json
  | status _ _ _ request _ => request
  | unreachable .. | malformed .. => none

/-- The answer, when there was one; a body that is not JSON counts as text. -/
def response : TransportError → Option Json
  | status _ _ _ _ body => some ((Json.ofText? body).getD (.str body))
  | malformed _ _ response => some response
  | unreachable .. => none

end TransportError

/-- The keys under which the manager gives the identifier of a new object. -/
def createdKeys : List String := ["id", "parcelId", "profileId"]

/-- The identifier of a new object: the first key with a text that reads as one. -/
def createdId (answer : Json) : Option Uuid :=
  createdKeys.findSome? fun key => ((answer.get? key).bind Json.text?).bind Uuid.ofText?

end ProfileMigration
