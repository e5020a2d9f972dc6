import HostAgent.Record.Basic

namespace HostAgent

/-!
# Instances

What is known of a container that serves a volume, as it was when last inspected.
-/

/-- The part that an instance plays for its volume. -/
inductive Role where
  | controller
  | replica
  | none
  deriving DecidableEq, Repr, Inhabited

namespace Role

def name : Role → String
  | .controller => "controller"
  | .replica => "replica"
  | .none => "none"

def all : List Role := [.controller, .replica, .none]

instance : Record Role where
  toJson r := .string r.name
  decoder := .enumeration (all.map fun r => (r.name, r))

end Role

structure Instance where
  id : String
  role : Role
  name : String
  hostId : String
  address : String
  running : Bool
  deriving DecidableEq, Repr

namespace Instance

def blank : Instance := ⟨"", .none, "", "", "", false⟩

instance : Inhabited Instance := ⟨blank⟩

/-- What is left to say of an instance that can no longer be inspected. -/
def removed (id : String) (role : Role) : Instance := { blank with id := id, role := role }

def fields : Json.Fields Instance :=
  Instance.mk <$> .required "id" .string <*> .required "type" Record.decoder <*>
    .required "name" .string <*> .required "host_id" .string <*>
    .required "address" .string <*> .required "running" .bool

def members (i : Instance) : List (String × Json) :=
  [("id", .string i.id), ("type", Record.toJson i.role), ("name", .string i.name),
    ("host_id", .string i.hostId), ("address", .string i.address), ("running", .bool i.running)]

instance : Record Instance where
  toJson i := .object i.members
  decoder := Json.record "struct InstanceInfo" fields

end Instance

/-- The process through which a volume is used. -/
structure Controller where
  inst : Instance
  deriving DecidableEq, Repr, Inhabited

instance : Record Controller where
  toJson c := .object c.inst.members
  decoder := (Json.flattened "struct ControllerInfo" (pure ()) Instance.fields).map fun r => ⟨r.2⟩

end HostAgent
