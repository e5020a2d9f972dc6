import HostAgent.Agent
import HostAgent.Api
import HostAgent.Container.Simulated
import HostAgent.Store.Disturbed

namespace HostAgent

/-!
# Clusters

Agents over one store, each with an engine of its own. What an agent forwards goes over the
network to whoever listens at the address, and is answered there as any request is, unless that
takes longer than the sender waits.
-/

inductive Readiness where
  | ready
  /-- The budget is used up. -/
  | late
  /-- The wait cannot even begin. -/
  | broken
  deriving DecidableEq, Repr, Inhabited

def Readiness.outcome (r : Readiness) (w : Probe.Wait) : Except ProbeError Unit :=
  match r with
  | .ready => .ok ()
  | .late => .error (.timeout w.target w.budget)
  | .broken => .error (.client (.badAddress none))

structure Member where
  agent : Agent
  engine : Container.Engine
  /-- How waits for servers end. -/
  server : Readiness
  /-- How waits for paths end. -/
  path : Readiness
  /-- How many nanoseconds a call takes that is so answered. -/
  pace : (c : Executor.interface.Call) → Executor.interface.Answer c → Nat
  /-- The waits so far, in order. -/
  waits : List Probe.Wait

namespace Member

def ofAgent (a : Agent) (e : Container.Engine) : Member := 
  ⟨a, e, .ready, .ready, fun _ _ => 0, []⟩

def readiness (m : Member) : Probe.Wait → Readiness
  | .http _ _ => m.server
  | .path _ _ => m.path

def step : (c : Executor.interface.Call) → Member → Executor.interface.Answer c × Member
  | .inl c, m =>
    let (a, e) := Container.Engine.step c m.engine
    (a, { m with engine := e })
  | .inr w, m => ((m.readiness w).outcome w, { m with waits := m.waits ++ [w] })

@[simp] theorem agent_step (c : Executor.interface.Call) (m : Member) :
    (step c m).2.agent = m.agent := by
  cases c <;> rfl

@[simp] theorem pace_step (c : Executor.interface.Call) (m : Member) :
    (step c m).2.pace = m.pace := by
  cases c <;> rfl

end Member

structure Network (n : Nat) where
  /-- The address that is dialled for the one that a host is registered with. -/
  dial : String → String
  /-- Who listens where a request is sent to. -/
  listener : Http.Url → Option (Fin n)

structure Cluster (n : Nat) where
  store : Store.Disturbed
  members : Vector Member n
  network : Network n
  /-- The time on all clocks. -/
  now : Time.Timestamp
  /-- How one of so many and one is chosen. -/
  choose : (others : Nat) → Fin (others + 1)
  /-- What was forwarded so far, in order. -/
  forwards : List (Host × Request)

namespace Cluster

variable {n : Nat}

def stepMember (i : Fin n) (c : Executor.interface.Call) (s : Cluster n) :
    Executor.interface.Answer c × Cluster n :=
  let (a, m) := Member.step c s.members[i]
  (a, { s with members := s.members.set i m })

def serve (i : Fin n) (c : Api.Call) (s : Cluster n) : Api.Reply × Cluster n :=
  (Api.respond s.members[i].agent.executor s.now c).run (stepMember i) s

/-- A request as it arrives where it was sent to. -/
def arrival (r : Http.Request) : Api.Call := ⟨r.method, r.url.path.text, r.contentType, r.body⟩

/-- What the sender of a request gets to know of the reply to it. -/
def heard : Option Api.Reply → Http.Outcome
  | some reply => .answered ⟨reply.status, reply.body⟩
  | none => .timedOut

/-- Sends a request to whoever listens. The sender hangs up when it has waited long enough, and what
was not begun by then is not done. -/
def exchange (r : Http.Request) (s : Cluster n) : Http.Outcome × Cluster n :=
  match s.network.listener r.url with
  | none => (.refused, s)
  | some i =>
    let m := s.members[i]
    let task := Api.respond m.agent.executor s.now (arrival r)
    let (reply, s) := (task.within m.pace Peer.patience.nanoseconds).run (stepMember i) s
    (heard reply, s)

def forward (h : Host) (r : Request) (s : Cluster n) : Result Instance × Cluster n :=
  (Peer.forward { h with address := s.network.dial h.address } r).run.run exchange s

def step (i : Fin n) : (c : Agent.Call) → Cluster n → c.Answer × Cluster n
  | .store c, s =>
    let (a, d) := Store.Disturbed.step c s.store
    (a, { s with store := d })
  | .container c, s => s.stepMember i (.inl c)
  | .wait w, s => s.stepMember i (.inr w)
  | .now, s => (s.now, s)
  | .pick others, s => (s.choose others, s)
  | .forward h r, s => { s with forwards := s.forwards ++ [(h, r)] }.forward h r

def act {α : Type} (i : Fin n) (op : Agent → Agent.Op α) (s : Cluster n) : Result α × Cluster n :=
  (op s.members[i].agent).run.run (step i) s

end Cluster

end HostAgent
