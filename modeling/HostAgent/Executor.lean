import HostAgent.Container.Basic
import HostAgent.FilePath
import HostAgent.Probe
import HostAgent.Record.Host

namespace HostAgent

/-!
# Carrying out requests

The executor carries out requests on the containers of its own host. What it answers about an
instance comes from an inspection made for that answer. A container that cannot be started or
inspected after it was created is removed again; one that is only not ready stays.
-/

/-- How long the executor waits, and where the devices of volumes appear. -/
structure Budgets where
  api : Time.Span
  device : Time.Span
  /-- How long a container may take to stop. -/
  stop : Time.Span
  deviceRoot : String
  deriving DecidableEq, Repr

namespace Budgets

def standard : Budgets := ⟨.seconds 30, .seconds 30, .seconds 60, "/dev/longhorn"⟩

instance : Inhabited Budgets := ⟨standard⟩

def devicePath (b : Budgets) (volume : String) : String :=
  FilePath.join b.deviceRoot volume

end Budgets

structure Executor where
  host : Host
  budgets : Budgets
  deriving DecidableEq, Repr

namespace Executor

abbrev interface : Interface := Container.interface.sum Probe.interface

abbrev Op (α : Type) := ExceptT AgentError (Task interface) α

/-- Makes a call on the engine, and says what it was for if it fails. -/
def call {α : Type} (op target : String) (t : Task Container.interface (Except Container.Error α)) :
    Op α :=
  ExceptT.mk (t.inl.bind fun a => .done (a.mapError (.runtime op target)))

def wait (w : Probe.Wait) (what : String) : Op Unit :=
  ExceptT.mk ((Task.inr (J := Probe.interface) (Task.call (I := Probe.interface) w)).bind fun a =>
    .done (a.mapError fun e => .context what (.readiness e)))

def orchestrator : String := "docker"

def controllerPort : Nat := 9501

/-- The first of the three ports of a replica. -/
def replicaPort : Nat := 9502

def replicaPorts : List UInt16 := [9502, 9503, 9504]

def dataPath : String := "/volume"

def controllerSpec (p : ControllerPayload) : Container.Spec where
  name := p.instanceName
  image := p.image
  command := ["launch", "controller", "--listen", s!"0.0.0.0:{controllerPort}",
    "--frontend", "tgt"] ++ p.replicaAddresses.flatMap (fun a => ["--replica", a]) ++
    [p.volumeName]
  binds := ["/dev:/host/dev", "/proc:/host/proc"]
  volumes := []
  privileged := true
  ports := []

def replicaSpec (p : ReplicaPayload) : Container.Spec where
  name := p.instanceName
  image := p.image
  command := ["launch", "replica", "--listen", s!"0.0.0.0:{replicaPort}",
    "--size", toString p.volumeSize.toNat, dataPath]
  binds := []
  volumes := [dataPath]
  privileged := true
  ports := replicaPorts

def plainName (name : String) : String :=
  match name.toList with
  | '/' :: r => String.ofList r
  | _ => name

/-- What is known of an instance, from an inspection of its container. -/
def inspect (x : Executor) (id : String) (role : Role) : Op Instance := do
  let s ← call "inspect container" id (Task.call (I := Container.interface) (.inspect id))
  return ⟨s.id, role, plainName s.name, x.host.uuid, s.address, s.running⟩

def start (x : Executor) (id : String) (role : Role) : Op Instance := do
  call "start container" id (Task.call (I := Container.interface) (.start id))
  x.inspect id role

def stop (x : Executor) (id : String) (role : Role) : Op Instance := do
  call "stop container" id (Task.call (I := Container.interface) (.stop id x.budgets.stop))
  x.inspect id role

/-- Removes a container with its own volumes. -/
def remove (id : String) (role : Role) : Op Instance := do
  call "remove container" id (Task.call (I := Container.interface) (.remove id true))
  return .removed id role

/-- Creates and starts a container. If it does not start, it is removed, and whether that succeeds
does not change the error. -/
def launch (x : Executor) (spec : Container.Spec) (role : Role) : Op Instance := do
  let id ← call "create container" spec.name (Task.call (I := Container.interface) (.create spec))
  tryCatch (x.start id role) fun e => do
    let _ ← ExceptT.lift (remove id role).run
    throw e

def createController (x : Executor) (p : ControllerPayload) : Op Instance := do
  let i ← x.launch (controllerSpec p) .controller
  let i := { i with address := s!"http://{i.address}:{controllerPort}" }
  let url := i.address ++ "/v1"
  wait (.http url x.budgets.api) s!"fail to wait for api endpoint at {url}"
  let device := x.budgets.devicePath p.volumeName
  wait (.path device x.budgets.device) s!"fail to wait for device {device}"
  return i

def createReplica (x : Executor) (p : ReplicaPayload) : Op Instance :=
  x.launch (replicaSpec p) .replica

/-- Carries out a request, after everything that can be said against it. -/
def process (x : Executor) (r : Request) : Op Instance := do
  if r.envelope.orchestrator ≠ orchestrator then
    throw (.wrongOrchestrator r.envelope.orchestrator)
  let id := r.target.id
  if id = "" then
    throw (.invalidArgument "schedule request has an empty instance ID")
  match r.payload with
  | .error e => throw (.ofPayloadError e)
  | .ok (.createController p) => x.createController p
  | .ok (.createReplica p) => x.createReplica p
  | .ok .startInstance => x.start id r.target.role
  | .ok .stopInstance => x.stop id r.target.role
  | .ok .deleteInstance => remove id r.target.role

end Executor

end HostAgent
