import HostAgent.Record.Instance

namespace HostAgent

/-!
# Requests for work

A request names an action, the instance that it is about, and the kind of engine that has to carry
it out. What else an action needs is attached as a free value, and is decoded by the action.
-/

inductive Action where
  | createController
  | createReplica
  | startInstance
  | stopInstance
  | deleteInstance
  /-- A tag without a meaning here. -/
  | unknown (tag : String)
  deriving DecidableEq, Repr, Inhabited

namespace Action

def tag : Action → String
  | .createController => "create-controller"
  | .createReplica => "create-replica"
  | .startInstance => "start-instance"
  | .stopInstance => "stop-instance"
  | .deleteInstance => "delete-instance"
  | .unknown tag => tag

def ofTag (tag : String) : Action :=
  if tag = "create-controller" then .createController
  else if tag = "create-replica" then .createReplica
  else if tag = "start-instance" then .startInstance
  else if tag = "stop-instance" then .stopInstance
  else if tag = "delete-instance" then .deleteInstance
  else .unknown tag

@[simp] theorem tag_ofTag (tag : String) : (ofTag tag).tag = tag := by
  unfold ofTag
  repeat' split
  all_goals simp_all [Action.tag]

instance : Record Action where
  toJson a := .string a.tag
  decoder := Json.Decoder.string.map ofTag

end Action

structure ControllerPayload where
  instanceName : String
  volumeName : String
  image : String
  replicaAddresses : List String
  deriving DecidableEq, Repr, Inhabited

namespace ControllerPayload

def fields : Json.Fields ControllerPayload :=
  ControllerPayload.mk <$> .required "instance_name" .string <*>
    .required "volume_name" .string <*> .required "longhorn_image" .string <*>
    .optional "replica_addresses" (.list .string) []

instance : Record ControllerPayload where
  toJson p := .object [("instance_name", .string p.instanceName),
    ("volume_name", .string p.volumeName), ("longhorn_image", .string p.image),
    ("replica_addresses", .strings p.replicaAddresses)]
  decoder := Json.record "struct CreateControllerPayload" fields

end ControllerPayload

structure ReplicaPayload where
  instanceName : String
  volumeName : String
  volumeSize : UInt64
  image : String
  deriving DecidableEq, Repr, Inhabited

namespace ReplicaPayload

def fields : Json.Fields ReplicaPayload :=
  ReplicaPayload.mk <$> .required "instance_name" .string <*>
    .required "volume_name" .string <*> .required "volume_size" .word <*>
    .required "longhorn_image" .string

instance : Record ReplicaPayload where
  toJson p := .object [("instance_name", .string p.instanceName),
    ("volume_name", .string p.volumeName), ("volume_size", .ofWord p.volumeSize),
    ("longhorn_image", .string p.image)]
  decoder := Json.record "struct CreateReplicaPayload" fields

end ReplicaPayload

/-- The payload of a request, by its action. -/
inductive Payload where
  | createController (payload : ControllerPayload)
  | createReplica (payload : ReplicaPayload)
  | startInstance
  | stopInstance
  | deleteInstance
  deriving DecidableEq, Repr

inductive PayloadError where
  | unknownAction (tag : String)
  | missing (action : String)
  | malformed (action : String) (report : Json.Report)
  deriving DecidableEq, Repr

def PayloadError.message : PayloadError → String
  | .unknownAction tag => s!"unknown schedule action: {tag}"
  | .missing action => s!"missing payload for action {action}"
  | .malformed action report => s!"malformed payload for action {action}: {report.message}"

structure Target where
  id : String
  role : Role
  /-- Empty where the scheduler has to choose a host. -/
  hostId : String
  deriving DecidableEq, Repr

namespace Target

def blank : Target := ⟨"", .none, ""⟩

instance : Inhabited Target := ⟨blank⟩

def fields : Json.Fields Target :=
  Target.mk <$> .required "id" .string <*> .required "type" Record.decoder <*>
    .optional "host_id" .string ""

instance : Record Target where
  toJson t := .object [("id", .string t.id), ("type", Record.toJson t.role),
    ("host_id", .string t.hostId)]
  decoder := Json.record "struct ScheduleInstance" fields

end Target

/-- The kind of engine that a request is meant for, and what is attached to the request. -/
structure Envelope where
  orchestrator : String
  data : Option Json.Value
  deriving DecidableEq

namespace Envelope

def empty (orchestrator : String) : Envelope := ⟨orchestrator, none⟩

instance : Inhabited Envelope := ⟨empty ""⟩

def withPayload {α : Type} [Record α] (orchestrator : String) (payload : α) : Envelope :=
  ⟨orchestrator, some (Json.value (Record.toJson payload))⟩

def fields : Json.Fields Envelope :=
  Envelope.mk <$> .required "orchestrator" .string <*>
    .optional "data" (.option .value) none

instance : Record Envelope where
  toJson e := .object (("orchestrator", .string e.orchestrator) :: match e.data with
    | none => []
    | some v => [("data", v.json)])
  decoder := Json.record "struct ScheduleData" fields

end Envelope

structure Request where
  action : Action
  target : Target
  envelope : Envelope
  deriving DecidableEq

namespace Request

def fields : Json.Fields Request :=
  Request.mk <$> .required "action" Record.decoder <*> .required "instance" Record.decoder <*>
    .required "data" Record.decoder

instance : Record Request where
  toJson r := .object [("action", Record.toJson r.action), ("instance", Record.toJson r.target),
    ("data", Record.toJson r.envelope)]
  decoder := Json.record "struct ScheduleRequest" fields

/-- What is attached to a request, as a record. -/
def attached {α : Type} [Record α] (r : Request) : Except PayloadError α :=
  match r.envelope.data with
  | none => .error (.missing r.action.tag)
  | some v => (Record.ofJson v.json).mapError (.malformed r.action.tag)

/-- The payload of a request. Actions on an instance that exists need none, and what is attached
to them does not matter. -/
def payload (r : Request) : Except PayloadError Payload :=
  match r.action with
  | .createController => r.attached.map .createController
  | .createReplica => r.attached.map .createReplica
  | .startInstance => .ok .startInstance
  | .stopInstance => .ok .stopInstance
  | .deleteInstance => .ok .deleteInstance
  | .unknown tag => .error (.unknownAction tag)

end Request

end HostAgent
