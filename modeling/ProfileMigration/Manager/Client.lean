/-
  ProfileMigration.Manager.Client

  Calls as requests of the web, and the answers to them:

    Client              -- the address of a manager and the token to show it
    Request             -- what is sent
    Client.request      -- a call as a request
    Call.answered       -- what a status and a text answer to a call

  This models `ManagerClient`: `api_url`, `auth_header` and `send`.
-/
import ProfileMigration.Manager.Call
import ProfileMigration.Text.Blank

namespace ProfileMigration

/-- The address of a manager and the token to show it. -/
structure Client where
  base : String
  token : String
deriving DecidableEq

/-- What is sent for a call. -/
structure Request where
  method : Method
  url : String
  authorization : String
  accept : String
  contentType : Option String
  body : Option String
deriving DecidableEq

namespace Client

/-- A client for an address, with or without slashes at its end. -/
def ofUrl (url token : String) : Client :=
  ⟨String.ofList (url.toList.reverse.dropWhile (· = '/')).reverse, token⟩

/-- The address of a path of the manager. -/
def url (c : Client) (path : String) : String := c.base ++ "/dataservice" ++ path

/-- Whether a text can be sent in a header: it has no controls but tabs. -/
def isHeaderText (s : String) : Bool :=
  s.toList.all fun c => (0x20 ≤ c.toNat && c.toNat ≠ 0x7f) || c = '\t'

/-- A call as a request, unless the token cannot be sent. -/
def request (c : Client) (call : Call) : Except TransportError Request :=
  if isHeaderText c.token then
    .ok ⟨call.method, c.url call.path, "Bearer " ++ c.token, "application/json",
      call.body.map fun _ => "application/json", call.body.map Json.compact⟩
  else
    .error (.unreachable call.method.text call.path "builder error: failed to parse header value")

end Client

/-- Whether a status reports success. -/
def isSuccess (code : UInt16) : Bool := 200 ≤ code.toNat && code.toNat < 300

/-- What a status and a text answer to a call. A text of blanks is no value, and a mark of
    byte order in front is not part of the text. -/
def Call.answered (call : Call) (code : UInt16) (sent : String) : Except TransportError Json :=
  let text := match sent.toList with
    | '\ufeff' :: cs => String.ofList cs
    | _ => sent
  -- A refusal keeps its text whatever it is
  if !isSuccess code then .error (.status call.method.text call.path code call.body text)
  else if text.toList.all Text.isBlank then .ok .null
  else match Json.ofText? text with
    | some answer => .ok answer
    | none => .error (.malformed call.path "the answer is not JSON" (.str text))

end ProfileMigration
