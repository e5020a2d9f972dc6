import HostAgent.Text.Split

namespace HostAgent.Config

/-!
# Settings

What can be set from outside: by a flag of the command line, or else by a variable of the
environment. Each setting has a kind, which says what the texts given for it stand for.
-/

inductive Fault where
  | help
  | version
  /-- An argument that is no flag, and no value of one. -/
  | unknown
  /-- A value that is missing, or none of the possible ones. -/
  | unusable
  /-- A value that is no number of its kind. -/
  | malformed
  /-- A flag given again. -/
  | repeated
  /-- A value attached to a flag that takes none. -/
  | surplus
  deriving DecidableEq, Repr

inductive Kind where
  /-- Texts between commas, of which a flag can add more. -/
  | texts
  | text
  /-- A text that is not empty. -/
  | path
  | port
  | word
  /-- A flag that takes no value. -/
  | switch
  deriving DecidableEq, Repr

namespace Kind

def Value : Kind → Type
  | .texts => List String
  | .text | .path => String
  | .port => UInt16
  | .word => UInt64
  | .switch => Bool

/-- The number that digits write, at least one. -/
def natural? (s : List Char) : Option Nat :=
  if s.isEmpty then none
  else s.foldlM (fun n c => if c.isDigit then some (n * 10 + (c.toNat - 48)) else none) 0

def unsigned? : List Char → Option Nat
  | '+' :: r => natural? r
  | s => natural? s

def signed? : List Char → Option Int
  | '-' :: r => (natural? r).map fun n => -(n : Int)
  | s => (unsigned? s).map Int.ofNat

def read : (k : Kind) → String → Except Fault k.Value
  | .texts, s => .ok (Text.splitAt ',' s)
  | .text, s => .ok s
  | .path, s => if s = "" then .error .unusable else .ok s
  | .port, s =>
    match signed? s.toList with
    | some i => if 0 ≤ i ∧ i < 65536 then .ok i.toNat.toUInt16 else .error .malformed
    | none => .error .malformed
  | .word, s =>
    match unsigned? s.toList with
    | some n => if n < 18446744073709551616 then .ok n.toUInt64 else .error .malformed
    | none => .error .malformed
  | .switch, s =>
    if s = "true" then .ok true else if s = "false" then .ok false else .error .unusable

/-- Reads a text for a setting that may have a value already. Only a list goes on. -/
def extend : (k : Kind) → Option k.Value → String → Except Fault k.Value
  | .texts, some (l : List String), s => .ok (l ++ Text.splitAt ',' s : List String)
  | _, some _, _ => .error .repeated
  | k, none, s => k.read s

end Kind

inductive Setting where
  | servers
  | root
  | image
  | port
  | socket
  | configDir
  | deviceRoot
  | apiBudget
  | deviceBudget
  | stopBudget
  | pollInterval
  | simulated
  | logLevel
  deriving DecidableEq, Repr

namespace Setting

/-- The settings in the order in which variables are looked at. -/
def all : List Setting :=
  [.servers, .root, .image, .port, .socket, .configDir, .deviceRoot, .apiBudget, .deviceBudget,
    .stopBudget, .pollInterval, .simulated, .logLevel]

theorem mem_all (s : Setting) : s ∈ all := by cases s <;> decide

def kind : Setting → Kind
  | .servers => .texts
  | .root | .image | .logLevel => .text
  | .socket | .configDir | .deviceRoot => .path
  | .port => .port
  | .apiBudget | .deviceBudget | .stopBudget | .pollInterval => .word
  | .simulated => .switch

/-- The name of the flag, without the dashes. -/
def flagName : Setting → String
  | .servers => "etcd-servers"
  | .root => "etcd-prefix"
  | .image => "longhorn-image"
  | .port => "port"
  | .socket => "docker-socket"
  | .configDir => "config-dir"
  | .deviceRoot => "device-root"
  | .apiBudget => "wait-api-timeout-secs"
  | .deviceBudget => "wait-device-timeout-secs"
  | .stopBudget => "container-stop-timeout-secs"
  | .pollInterval => "poll-interval-ms"
  | .simulated => "mock-runtime"
  | .logLevel => "log-level"

def variableName : Setting → String
  | .servers => "LHORC_ETCD_SERVERS"
  | .root => "LHORC_ETCD_PREFIX"
  | .image => "LHORC_LONGHORN_IMAGE"
  | .port => "LHORC_PORT"
  | .socket => "LHORC_DOCKER_SOCKET"
  | .configDir => "LHORC_CONFIG_DIR"
  | .deviceRoot => "LHORC_DEVICE_ROOT"
  | .apiBudget => "LHORC_WAIT_API_TIMEOUT"
  | .deviceBudget => "LHORC_WAIT_DEVICE_TIMEOUT"
  | .stopBudget => "LHORC_CONTAINER_STOP_TIMEOUT"
  | .pollInterval => "LHORC_POLL_INTERVAL_MS"
  | .simulated => "LHORC_MOCK_RUNTIME"
  | .logLevel => "LHORC_LOG_LEVEL"

def ofFlag? (name : String) : Option Setting := all.find? fun s => s.flagName == name

theorem ofFlag?_flagName (s : Setting) : ofFlag? s.flagName = some s := by cases s <;> decide

end Setting

def Given : Type := (s : Setting) → Option s.kind.Value

namespace Given

def nothing : Given := fun _ => none

def set (g : Given) (s : Setting) (v : s.kind.Value) : Given :=
  fun t => if h : t = s then some (h ▸ v) else g t

@[simp] theorem set_same (g : Given) (s : Setting) (v : s.kind.Value) : g.set s v s = some v := by
  simp [set]

@[simp] theorem set_of_ne (g : Given) {s t : Setting} (v : s.kind.Value) (h : t ≠ s) :
    g.set s v t = g t := by
  simp [set, h]

def accept (g : Given) (s : Setting) (text : String) : Except Fault Given :=
  (s.kind.extend (g s) text).map (g.set s)

end Given

end HostAgent.Config
