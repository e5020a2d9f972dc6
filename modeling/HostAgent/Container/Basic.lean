import HostAgent.Container.Error
import HostAgent.Task
import HostAgent.Time.Span

namespace HostAgent.Container

/-!
# Containers

The calls on a container engine: a container is created stopped, and started, stopped, inspected
and removed by the identifier that it was given.
-/

structure Spec where
  /-- The name of the container, which is that of the instance. -/
  name : String
  image : String
  command : List String
  /-- Directories of the host within the container, `host:container`. -/
  binds : List String
  /-- Paths within the container that get a volume of their own. -/
  volumes : List String
  privileged : Bool
  /-- Ports open to other containers. -/
  ports : List UInt16
  deriving DecidableEq, Repr, Inhabited

structure Status where
  id : String
  /-- The name, which may have a slash in front. -/
  name : String
  address : String
  running : Bool
  deriving DecidableEq, Repr, Inhabited

inductive Call where
  | ping
  | create (spec : Spec)
  | start (id : String)
  /-- Stops a container, and kills it after the grace. -/
  | stop (id : String) (grace : Time.Span)
  /-- Removes a container, on demand with its own volumes. -/
  | remove (id : String) (volumes : Bool)
  | inspect (id : String)
  deriving DecidableEq, Repr

def Call.Answer : Call → Type
  | .create _ => Except Error String
  | .inspect _ => Except Error Status
  | .ping | .start _ | .stop _ _ | .remove _ _ => Except Error Unit

def Call.id? : Call → Option String
  | .start id | .stop id _ | .remove id _ | .inspect id => some id
  | .ping | .create _ => none

abbrev interface : Interface := ⟨Call, Call.Answer⟩

end HostAgent.Container
