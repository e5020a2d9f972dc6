import HostAgent.Container.Basic
import HostAgent.Http.Exchange
import HostAgent.Json.Decoder
import HostAgent.Json.Printer
import HostAgent.SortedMap

namespace HostAgent.Container

/-!
# The engine behind a socket

The calls on the engine as exchanges with its daemon, version 1.24 of its interface, over a local
socket. Identifiers stand in the path as they are. A path that no request can have ends the client
itself, so every call may also end in no answer at all.
-/

namespace Daemon

open Json (Decoder Fields)

structure Request where
  method : Http.Method
  /-- Path and query. -/
  target : String
  contentType : Option String
  body : Http.Body
  deriving DecidableEq, Repr

inductive Outcome where
  | unconnected (errno : Errno)
  | closed
  | answered (response : Http.Response)
  deriving DecidableEq, Repr, Inhabited

abbrev interface : Interface := ⟨Request, fun _ => Outcome⟩

/-- Why a call has no result: its path makes no request, or it failed. -/
inductive Failure where
  | badTarget
  | error (error : Error)
  deriving DecidableEq, Repr

abbrev Op (α : Type) := ExceptT Failure (Task interface) α

/-! ## Targets -/

def inPath (c : Char) : Bool :=
  let n := c.toNat
  n == 0x21 || (0x24 ≤ n && n ≤ 0x3B) || n == 0x3D || (0x40 ≤ n && n ≤ 0x5F) ||
    (0x61 ≤ n && n ≤ 0x7C) || n == 0x7D || n == 0x7E || n == 0x22

def inQuery (c : Char) : Bool :=
  let n := c.toNat
  n == 0x21 || (0x24 ≤ n && n ≤ 0x3B) || n == 0x3D || (0x3F ≤ n && n ≤ 0x7E)

/-- The greatest length of an address, and how much of it is around the socket and the path. -/
def maxAddress : Nat := 65534

def addressFrame : Nat := "unix://:0".length

/-- What is sent of a path: all before the mark of a fragment, if every character may stand where
it does and the address, in which each octet of the socket takes two, is not too long. -/
def target? (socket : String) (path : String) : Option String :=
  let sent := path.toList.takeWhile (· != '#')
  let (front, query) := sent.span (· != '?')
  let length := addressFrame + 2 * (Text.Utf8.encode socket).length + (Text.Utf8.encode path).length
  if length ≤ maxAddress ∧ front.all inPath ∧ (query.drop 1).all inQuery then
    some (String.ofList sent)
  else none

/-! ## Bodies -/

def emptyObject : Json := .object []

/-- An object that has the given names, each once and in order. -/
def names (l : List String) : Json :=
  .object ((SortedMap.ofList (l.map fun n => (n, emptyObject))).entries)

def texts (l : List String) : Json := .array (l.map .string)

/-- What is sent to create a container. Lists that name things are left out when they are empty. -/
def createBody (s : Spec) : Json :=
  .object ([("Image", .string s.image), ("Cmd", texts s.command)] ++
    (if s.volumes.isEmpty then [] else [("Volumes", names s.volumes)]) ++
    (if s.ports.isEmpty then []
      else [("ExposedPorts", names (s.ports.map fun p => s!"{p.toNat}/tcp"))]) ++
    [("HostConfig", .object [("Binds", texts s.binds), ("Privileged", .bool s.privileged)])])

def createdId : Decoder String :=
  Json.record "struct CreateContainerResponse" (.required "Id" .string)

def networkAddress : Decoder String :=
  Json.record "struct InspectNetwork" (.optional "IPAddress" .string "")

def runningState : Decoder Bool :=
  Json.record "struct InspectState" (.required "Running" .bool)

def status : Decoder Status :=
  Json.record "struct InspectResponse" <|
    (fun id name running address => Status.mk id name address running) <$>
      .required "Id" .string <*> .required "Name" .string <*>
      .required "State" runningState <*> .optional "NetworkSettings" networkAddress ""

def apiMessage : Decoder String :=
  Json.record "struct ApiMessage" (.required "message" .string)

/-! ## Calls -/

structure Client where
  socket : String
  deriving DecidableEq, Repr, Inhabited

def version : String := "/v1.24"

def send (c : Client) (method : Http.Method) (path : String) (body : Option Json) :
    Op Http.Response :=
  match target? c.socket (version ++ path) with
  | none => throw .badTarget
  | some target => do
    let contentType := body.map fun _ => "application/json"
    let octets := (body.map fun j => Text.Utf8.encode j.text).getD []
    match ← ExceptT.lift (Task.call (I := interface) ⟨method, target, contentType, octets⟩) with
    | .unconnected e => throw (.error (.http (.connecting e)))
    | .closed => throw (.error (.http .closed))
    | .answered r => return r

/-- The error of an answer that reports one. A missing container is one only where an identifier
was asked for. -/
def apiError (id : String) (r : Http.Response) : Error :=
  if r.status = 404 ∧ id ≠ "" then .notFound id
  else
    match apiMessage.ofInput (Text.Utf8.symbols r.body) with
    | .ok m => .api r.status m
    | .error _ => .api r.status r.text

def decode {α : Type} (d : Decoder α) (r : Http.Response) : Op α :=
  match d.ofInput (Text.Utf8.symbols r.body) with
  | .ok a => return a
  | .error e => throw (.error (.json e))

/-- A status that says that nothing had to be changed. -/
def notModified : Nat := 304

def ping (c : Client) : Op Unit := do
  let r ← send c .get "/containers/json" none
  if r.isSuccess then
    let _ ← decode (.list .value) r
  else throw (.error (apiError "" r))

def create (c : Client) (spec : Spec) : Op String := do
  let path := "/containers/create?name=" ++ Text.Percent.encodeName spec.name
  let r ← send c .post path (some (createBody spec))
  if r.isSuccess then decode createdId r else throw (.error (apiError "" r))

def start (c : Client) (id : String) : Op Unit := do
  let r ← send c .post ("/containers/" ++ id ++ "/start") none
  if r.isSuccess || r.status == notModified then return () else throw (.error (apiError id r))

def stop (c : Client) (id : String) (grace : Time.Span) : Op Unit := do
  let r ← send c .post ("/containers/" ++ id ++ s!"/stop?t={grace.wholeSeconds}") none
  if r.isSuccess || r.status == notModified then return () else throw (.error (apiError id r))

def remove (c : Client) (id : String) (volumes : Bool) : Op Unit := do
  let r ← send c .delete ("/containers/" ++ id ++ s!"?v={volumes}") none
  if r.isSuccess then return () else throw (.error (apiError id r))

def inspect (c : Client) (id : String) : Op Status := do
  let r ← send c .get ("/containers/" ++ id ++ "/json") none
  if r.isSuccess then decode status r else throw (.error (apiError id r))

/-- The result of a call, if the client is still there to give one. -/
def result {α : Type} (op : Op α) : Task interface (Option (Except Error α)) :=
  op.run.bind fun
    | .ok a => .done (some (.ok a))
    | .error (.error e) => .done (some (.error e))
    | .error .badTarget => .done none

def answer (c : Client) : (call : Call) → Task interface (Option call.Answer)
  | .ping => result (ping c)
  | .create spec => result (create c spec)
  | .start id => result (start c id)
  | .stop id grace => result (stop c id grace)
  | .remove id volumes => result (remove c id volumes)
  | .inspect id => result (inspect c id)

end Daemon

end HostAgent.Container
