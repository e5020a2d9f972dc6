import HostAgent.Http.Failure
import HostAgent.Http.Url
import HostAgent.Task
import HostAgent.Text.Utf8

namespace HostAgent.Http

/-!
# Exchanges

One request to one server, and what comes of it: no connection, no answer in time, a connection
closed without an answer, or an answer.
-/

inductive Method where
  | get
  | head
  | post
  | put
  | delete
  | other (name : String)
  deriving DecidableEq, Repr, Inhabited

namespace Method

def name : Method → String
  | .get => "GET"
  | .head => "HEAD"
  | .post => "POST"
  | .put => "PUT"
  | .delete => "DELETE"
  | .other name => name

def ofName (name : String) : Method :=
  if name = "GET" then .get
  else if name = "HEAD" then .head
  else if name = "POST" then .post
  else if name = "PUT" then .put
  else if name = "DELETE" then .delete
  else .other name

end Method

abbrev Body := List UInt8

structure Request where
  method : Method
  url : Url
  contentType : Option String
  body : Body
  deriving DecidableEq, Repr

structure Response where
  status : Nat
  body : Body
  deriving DecidableEq, Repr, Inhabited

def Response.isSuccess (r : Response) : Bool := 200 ≤ r.status && r.status < 300

def Response.text (r : Response) : String := Text.Utf8.decodeLossy r.body

inductive Outcome where
  | refused
  | timedOut
  | closed
  | answered (response : Response)
  deriving DecidableEq, Repr, Inhabited

abbrev interface : Interface := ⟨Request, fun _ => Outcome⟩

/-- The address of a request, if one can be sent to it. -/
def address? (text : String) : Except Failure Url :=
  match Url.parse text with
  | none => .error (.badAddress none)
  | some u => if u.isReachable then .ok u else .error (.badAddress (some u.text))

end HostAgent.Http
