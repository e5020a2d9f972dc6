import HostAgent.Error
import HostAgent.Store.Space

namespace HostAgent

/-!
# Routing requests

A request is carried out on the host that it names. One that names none is given to a registered
host chosen at random. The scheduler runs requests for its own host itself, and forwards the others
to the address that the host is registered with.
-/

structure Scheduler where
  host : Host
  space : Store.Space
  deriving DecidableEq, Repr

namespace Scheduler

inductive Call where
  | store (call : Store.Call)
  /-- Chooses one of so many and one. -/
  | pick (others : Nat)
  | run (request : Request)
  | forward (host : Host) (request : Request)

def Call.Answer : Call → Type
  | .store c => c.Answer
  | .pick others => Fin (others + 1)
  | .run _ | .forward _ _ => Result Instance

abbrev interface : Interface := ⟨Call, Call.Answer⟩

abbrev Op (α : Type) := ExceptT AgentError (Task interface) α

/-- Makes a call on the store, and says what it was for if it fails. -/
def ask {α : Type} (op key : String) (t : Store.Op α) : Op α :=
  ExceptT.mk ((t.run.interpret fun c => Task.call (I := interface) (.store c)).bind fun a =>
    .done (a.mapError (.store op key)))

def place (s : Scheduler) : Op String := do
  match ← ask "list" "hosts" s.space.listHosts with
  | [] => throw (.notFound "host" "for placement")
  | h :: rest => do
    let i ← ExceptT.lift (Task.call (I := interface) (.pick rest.length))
    return ((h :: rest).get i).uuid

def dispatch (s : Scheduler) (r : Request) : Op Instance :=
  let hostId := r.target.hostId
  if hostId = s.host.uuid then
    ExceptT.mk (Task.call (I := interface) (.run r))
  else do
    match ← ask "get" (s.space.hostKey hostId) (s.space.getHost hostId) with
    | none => throw (.notFound "host" hostId)
    | some h => ExceptT.mk (Task.call (I := interface) (.forward h r))

def schedule (s : Scheduler) (r : Request) : Op Instance := do
  if r.target.hostId = "" then
    let hostId ← s.place
    s.dispatch { r with target := { r.target with hostId := hostId } }
  else s.dispatch r

end Scheduler

end HostAgent
