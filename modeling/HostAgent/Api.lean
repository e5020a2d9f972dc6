import HostAgent.Executor
import HostAgent.Http.Exchange
import HostAgent.Http.MediaType
import HostAgent.Peer
import HostAgent.Time.Timestamp

namespace HostAgent.Api

/-!
# What an agent serves

An agent answers whether it is there, and carries out the requests that other agents post to it.
An error is answered by the status of its kind, with the kind and the message as body. A body that
is no request is turned down before anything is done.
-/

structure Call where
  method : Http.Method
  /-- The path, without a query. -/
  path : String
  contentType : Option String
  body : Http.Body
  deriving DecidableEq, Repr

structure Reply where
  status : Nat
  contentType : Option String
  /-- The methods that the path knows, where the method is another one. -/
  allow : Option String
  body : Http.Body
  deriving DecidableEq, Repr

namespace Reply

def json (status : Nat) (j : Json) : Reply :=
  ⟨status, some "application/json", none, Text.Utf8.encode j.text⟩

def plain (status : Nat) (text : String) : Reply :=
  ⟨status, some "text/plain; charset=utf-8", none, Text.Utf8.encode text⟩

def notFound : Reply := ⟨404, none, none, []⟩

def notAllowed (allow : String) : Reply := ⟨405, none, some allow, []⟩

def ofError (e : AgentError) : Reply :=
  .json e.kind.status (Record.toJson (ErrorBody.ofError e))

def ofResult : Result Instance → Reply
  | .ok i => .json 200 (Record.toJson i)
  | .error e => .ofError e

/-- The reply without what a request for the head alone does not get. -/
def head (r : Reply) : Reply := { r with body := [] }

end Reply

def bodyLimit : Nat := 2097152

/-- The request that a body holds, or the reply that turns it down. -/
def readRequest (c : Call) : Except Reply Request :=
  if !(c.contentType.map Http.isJsonType).getD false then
    .error (.plain 415 "Expected request with `Content-Type: application/json`")
  else if bodyLimit < c.body.length then
    .error (.plain 413 "Failed to buffer the request body: length limit exceeded")
  else
    match Record.ofInput (Text.Utf8.symbols c.body) with
    | .ok r => .ok r
    | .error e =>
      if e.fault.isMalformed then
        .error (.plain 400 s!"Failed to parse the request body as JSON: {e.located}")
      else
        .error (.plain 422
          s!"Failed to deserialize the JSON body into the target type: {e.located}")

def version : String := "0.1.0"

def health (host : Host) (now : Time.Timestamp) : Reply :=
  .json 200 (.object [("status", .string "ok"), ("host_id", .string host.uuid),
    ("version", .string version), ("timestamp", .string now.textWithOffset)])

/-- Answers a request. The moment is the one that is reported to those who ask for it. -/
def respond (x : Executor) (now : Time.Timestamp) (c : Call) : Task Executor.interface Reply :=
  if c.path = "/healthz" then
    match c.method with
    | .get => .done (health x.host now)
    | .head => .done (health x.host now).head
    | _ => .done (.notAllowed "GET,HEAD")
  else if c.path = Peer.schedulePath then
    match c.method with
    | .post =>
      match readRequest c with
      | .error reply => .done reply
      | .ok r => (x.process r).run.bind fun result => .done (.ofResult result)
    | _ => .done (.notAllowed "POST")
  else .done .notFound

end HostAgent.Api
