import HostAgent.Executor
import HostAgent.Scheduler

namespace HostAgent

/-!
# The agent of a host

What an agent offers: it keeps the records of hosts, volumes and settings in the shared store, and
turns operations on instances into requests, which its scheduler has carried out here or on another
host. It touches no container except through its executor.
-/

structure Agent where
  host : Host
  space : Store.Space
  budgets : Budgets
  /-- The image of engines as long as no settings are stored. -/
  image : String
  deriving DecidableEq, Repr

namespace Agent

inductive Call where
  | store (call : Store.Call)
  | container (call : Container.Call)
  | wait (wait : Probe.Wait)
  | now
  /-- Chooses one of so many and one. -/
  | pick (others : Nat)
  | forward (host : Host) (request : Request)

def Call.Answer : Call → Type
  | .store c => c.Answer
  | .container c => c.Answer
  | .wait _ => Except ProbeError Unit
  | .now => Time.Timestamp
  | .pick others => Fin (others + 1)
  | .forward _ _ => Result Instance

abbrev interface : Interface := ⟨Call, Call.Answer⟩

abbrev Op (α : Type) := ExceptT AgentError (Task interface) α

def call (c : Call) : Task interface c.Answer := Task.call (I := interface) c

def executor (a : Agent) : Executor := ⟨a.host, a.budgets⟩

def scheduler (a : Agent) : Scheduler := ⟨a.host, a.space⟩

/-! ## Parts of the agent -/

def storeCall (c : Store.Call) : Task interface c.Answer := call (.store c)

def executorCall : (c : Executor.interface.Call) → Task interface (Executor.interface.Answer c)
  | .inl c => call (.container c)
  | .inr w => call (.wait w)

def changeCall {M : Interface} (m : (c : M.Call) → Task interface (M.Answer c)) :
    (c : (Store.interface.sum M).Call) → Task interface ((Store.interface.sum M).Answer c)
  | .inl c => storeCall c
  | .inr c => m c

def process (a : Agent) (r : Request) : Op Instance :=
  ExceptT.mk ((a.executor.process r).run.interpret executorCall)

def schedulerCall (a : Agent) : (c : Scheduler.Call) → Task interface c.Answer
  | .store c => storeCall c
  | .pick others => call (.pick others)
  | .run r => (a.process r).run
  | .forward host r => call (.forward host r)

def schedule (a : Agent) (r : Request) : Op Instance :=
  ExceptT.mk ((a.scheduler.schedule r).run.interpret a.schedulerCall)

def stored {α : Type} (op : Store.Op α) : Task interface (Except Store.Error α) :=
  op.run.interpret storeCall

/-- An operation on the store, with what it was for if it fails. -/
def ask {α : Type} (op key : String) (t : Store.Op α) : Op α :=
  ExceptT.mk ((stored t).bind fun r => .done (r.mapError (.store op key)))

def within {α : Type} (what : String) (t : Op α) : Op α :=
  ExceptT.mk (t.run.bind fun r => .done (r.mapError (.context what)))

/-! ## Hosts -/

def hostId (a : Agent) : String := a.host.uuid

def getHost (a : Agent) (id : String) : Op (Option Host) :=
  ask "get" (a.space.hostKey id) (a.space.getHost id)

/-- The registered hosts by their identifiers. -/
def listHosts (a : Agent) : Op (SortedMap Host) := do
  let hosts ← ask "list" "hosts" a.space.listHosts
  return SortedMap.ofList (hosts.map fun h => (h.uuid, h))

/-- Where the agent of a host listens. An agent knows that of its own host. -/
def getAddress (a : Agent) (id : String) : Op String := do
  if id = a.host.uuid then return a.host.address
  match ← a.getHost id with
  | some h => return h.address
  | none => throw (.notFound "host" id)

/-! ## Volumes -/

def createVolume (a : Agent) (v : Volume) : Op Volume := do
  match ← ExceptT.lift (stored (a.space.createVolume v)) with
  | .ok () => return v
  | .error (.conflict _) => throw (.alreadyExists "volume" v.name)
  | .error e =>
    throw (.context "fail to create new volume metadata"
      (.store "create" (a.space.volumeKey v.name) e))

def getVolume (a : Agent) (name : String) : Op (Option Volume) :=
  ask "get" (a.space.volumeKey name) (a.space.getVolume name)

/-- Replaces the record of a volume that exists. The last writer wins. -/
def updateVolume (a : Agent) (v : Volume) : Op Unit := do
  match ← a.getVolume v.name with
  | none => throw (.context s!"cannot update volume {v.name}" (.notFound "volume" v.name))
  | some _ => ask "update" (a.space.volumeKey v.name) (a.space.setVolume v)

def deleteVolume (a : Agent) (name : String) : Op Unit := do
  if ← ask "delete" (a.space.volumeKey name) (a.space.deleteVolume name) then return ()
  else throw (.notFound "volume" name)

def listVolumes (a : Agent) : Op (List Volume) := ask "list" "volumes" a.space.listVolumes

abbrev clock : Interface := ⟨Unit, fun _ => Time.Timestamp⟩

/-- Marks the replica of a name as bad from now on, if there is one. -/
def markNow (replica : String) (v : Volume) : Task clock Volume :=
  match v.replicaKey? replica with
  | none => .done v
  | some _ => .ask () fun now => .done (v.markBad replica now)

/-- Marks a replica of a volume as bad. Only its name counts, and a volume without a replica of that
name stays as it is. -/
def markBadReplica (a : Agent) (volume : String) (replica : Replica) : Op Unit := do
  let change := (a.space.changeVolume volume (markNow replica.inst.name)).run
  match ← ExceptT.lift (change.interpret (changeCall fun _ => call .now)) with
  | .ok (some _) => return ()
  | .ok none => throw (.context "fail to mark bad replica" (.notFound "volume" volume))
  | .error e =>
    throw (.context "fail to mark bad replica" (.store "update" (a.space.volumeKey volume) e))

/-! ## Instances -/

def schedulableVolume (a : Agent) (name : String) : Op Volume := do
  match ← a.getVolume name with
  | none => throw (.notFound "volume" name)
  | some v =>
    if v.size = 0 then
      throw (.invalidArgument s!"invalid volume size 0 for volume {name}")
    return v

def replicaAddress (r : Replica) : String := s!"tcp://{r.inst.address}:{Executor.replicaPort}"

def controllerRequest (a : Agent) (v : Volume) (name : String) (replicas : SortedMap Replica) :
    Request where
  action := .createController
  target := ⟨name, .controller, a.host.uuid⟩
  envelope := .withPayload Executor.orchestrator
    (⟨name, v.name, v.image, replicas.values.map replicaAddress⟩ : ControllerPayload)

def replicaRequest (v : Volume) (name : String) : Request where
  action := .createReplica
  target := ⟨name, .replica, ""⟩
  envelope := .withPayload Executor.orchestrator
    (⟨name, v.name, v.size, v.image⟩ : ReplicaPayload)

def createController (a : Agent) (volume controller : String) (replicas : SortedMap Replica) :
    Op Controller :=
  within s!"fail to create controller for {volume}" do
    let v ← a.schedulableVolume volume
    let i ← a.schedule (a.controllerRequest v controller replicas)
    return ⟨i⟩

/-- Creates a replica of a volume on a host that the scheduler chooses. -/
def createReplica (a : Agent) (volume replica : String) : Op Replica :=
  within s!"fail to create replica for {volume}" do
    let v ← a.schedulableVolume volume
    let i ← a.schedule (replicaRequest v replica)
    return .ofInstance i

/-- Whether an instance says enough of itself to be acted on. -/
def isComplete (i : Instance) : Bool :=
  i.id != "" && i.hostId != "" && i.role != .none

def lifecycleRequest (action : Action) (i : Instance) : Request where
  action := action
  target := ⟨i.id, i.role, i.hostId⟩
  envelope := .empty Executor.orchestrator

def incomplete (verb : String) (i : Instance) : AgentError :=
  let id := Text.debugQuoted i.id
  let hostId := Text.debugQuoted i.hostId
  .invalidArgument
    s!"invalid instance info to {verb}: id={id} host_id={hostId} type={i.role.name}"

def lifecycle (a : Agent) (action : Action) (verb : String) (i : Instance) : Op Instance :=
  if isComplete i then
    within s!"fail to {verb} instance {i.id}" (a.schedule (lifecycleRequest action i))
  else throw (incomplete verb i)

def startInstance (a : Agent) (i : Instance) : Op Instance :=
  a.lifecycle .startInstance "start" i

def stopInstance (a : Agent) (i : Instance) : Op Instance :=
  a.lifecycle .stopInstance "stop" i

def removeInstance (a : Agent) (i : Instance) : Op Instance :=
  a.lifecycle .deleteInstance "remove" i

/-! ## Settings -/

/-- The stored settings, or those of a cluster that has none. -/
def getSettings (a : Agent) : Op Settings := do
  match ← ask "get" a.space.settingsKey a.space.getSettings with
  | some s => return s
  | none => return .withDefaultTarget a.image

def setSettings (a : Agent) (s : Settings) : Op Unit :=
  ask "set" a.space.settingsKey (a.space.setSettings s)

end Agent

end HostAgent
