import HostAgent.Container.Error
import HostAgent.Record.Request
import HostAgent.Store.Error
import HostAgent.Time.Span

namespace HostAgent

/-!
# Errors of the agent

What went wrong while the agent worked on something, with the error of the part that it relied on.
Every error belongs to one of eight kinds, which is also what travels between hosts.
-/

inductive ErrorKind where
  | alreadyExists
  | notFound
  | invalidArgument
  | unknownAction
  | runtimeFailure
  | readinessTimeout
  | storeFailure
  | connectivityFailure
  deriving DecidableEq, Repr, Inhabited

namespace ErrorKind

def name : ErrorKind → String
  | .alreadyExists => "already_exists"
  | .notFound => "not_found"
  | .invalidArgument => "invalid_argument"
  | .unknownAction => "unknown_action"
  | .runtimeFailure => "runtime_failure"
  | .readinessTimeout => "readiness_timeout"
  | .storeFailure => "store_failure"
  | .connectivityFailure => "connectivity_failure"

def all : List ErrorKind :=
  [.alreadyExists, .notFound, .invalidArgument, .unknownAction, .runtimeFailure,
    .readinessTimeout, .storeFailure, .connectivityFailure]

instance : Record ErrorKind where
  toJson k := .string k.name
  decoder := .enumeration (all.map fun k => (k.name, k))

def status : ErrorKind → Nat
  | .alreadyExists => 409
  | .notFound => 404
  | .invalidArgument | .unknownAction => 400
  | .readinessTimeout => 504
  | .runtimeFailure | .storeFailure | .connectivityFailure => 502

end ErrorKind

inductive ProbeError where
  | timeout (target : String) (budget : Time.Span)
  | client (failure : Http.Failure)
  deriving DecidableEq, Repr, Inhabited

def ProbeError.message : ProbeError → String
  | .timeout target budget => s!"timed out after {budget.text} waiting for {target}"
  | .client failure => s!"failed to build probe client: {failure.message}"

/-- Why a file operation failed: by a number of the system, or because the file is no text. -/
inductive FileFailure where
  | system (errno : Errno)
  | notText
  deriving DecidableEq, Repr, Inhabited

def FileFailure.message : FileFailure → String
  | .system e => e.fileText
  | .notText => "stream did not contain valid UTF-8"

inductive IdentityError where
  | file (op : String) (path : String) (failure : FileFailure)
  | empty (path : String)
  | hostname (errno : Errno)
  | interfaces (errno : Errno)
  | noAddress
  deriving DecidableEq, Repr, Inhabited

def IdentityError.message : IdentityError → String
  | .file op path failure => s!"failed to {op} {path}: {failure.message}"
  | .empty path => s!"identity file {path} is empty"
  | .hostname e => s!"failed to read hostname: {e.namedText}"
  | .interfaces e => s!"failed to list interfaces: {e.namedText}"
  | .noAddress => "no non-loopback IPv4 address found"

inductive AgentError where
  | alreadyExists (entity name : String)
  | notFound (entity name : String)
  | invalidArgument (text : String)
  | wrongOrchestrator (orchestrator : String)
  | unknownAction (tag : String)
  | payload (error : PayloadError)
  | runtime (op target : String) (source : Container.Error)
  | readiness (error : ProbeError)
  | store (op key : String) (source : Store.Error)
  | connectivity (text : String)
  | identity (error : IdentityError)
  | remote (host : String) (kind : ErrorKind) (message : String)
  | context (what : String) (source : AgentError)
  deriving DecidableEq, Repr, Inhabited

namespace AgentError

def message : AgentError → String
  | .alreadyExists entity name => s!"{entity} {name} already exists"
  | .notFound entity name => s!"{entity} {name} not found"
  | .invalidArgument text => s!"invalid argument: {text}"
  | .wrongOrchestrator o => s!"received request for the wrong orchestrator {o}"
  | .unknownAction tag => s!"cannot find specified action {tag}"
  | .payload e => s!"invalid schedule payload: {e.message}"
  | .runtime op target source => s!"failed to {op} {target}: {source.message}"
  | .readiness e => e.message
  | .store op key source => s!"failed to {op} {key}: {source.message}"
  | .connectivity text => s!"connectivity failure: {text}"
  | .identity e => s!"host identity: {e.message}"
  | .remote host kind message => s!"host {host} rejected request ({kind.name}): {message}"
  | .context what source => s!"{what}: {source.message}"

/-- The kind of an error, whatever it was wrapped in. -/
def kind : AgentError → ErrorKind
  | .alreadyExists _ _ => .alreadyExists
  | .notFound _ _ => .notFound
  | .invalidArgument _ | .wrongOrchestrator _ | .payload _ => .invalidArgument
  | .unknownAction _ => .unknownAction
  | .runtime _ _ _ => .runtimeFailure
  | .readiness (.timeout _ _) => .readinessTimeout
  | .readiness (.client _) => .connectivityFailure
  | .store _ _ _ => .storeFailure
  | .connectivity _ => .connectivityFailure
  | .identity .noAddress | .identity (.interfaces _) => .connectivityFailure
  | .identity _ => .storeFailure
  | .remote _ kind _ => kind
  | .context _ source => source.kind

/-- An unknown action is an error of its own, other faults of a payload are not. -/
def ofPayloadError : PayloadError → AgentError
  | .unknownAction tag => .unknownAction tag
  | e => .payload e

@[simp] theorem kind_context (c : String) (e : AgentError) : (context c e).kind = e.kind := rfl

end AgentError

structure ErrorBody where
  code : ErrorKind
  message : String
  deriving DecidableEq, Repr, Inhabited

namespace ErrorBody

def fields : Json.Fields ErrorBody :=
  ErrorBody.mk <$> .required "code" Record.decoder <*> .required "message" .string

instance : Record ErrorBody where
  toJson b := .object [("code", Record.toJson b.code), ("message", .string b.message)]
  decoder := Json.record "struct ErrorBody" fields

def ofError (e : AgentError) : ErrorBody := ⟨e.kind, e.message⟩

end ErrorBody

abbrev Result (α : Type) := Except AgentError α

end HostAgent
