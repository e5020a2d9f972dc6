import HostAgent.Cluster
import HostAgent.Proofs.Task.Run

namespace HostAgent

/-!
# What a cluster is asked for

An operation of an agent, with all that other agents do for it, is one task: it asks the store, and
on each host the engine and the waits there. The task says what happens in a cluster whatever its
parts answer, and a cluster of simulated engines runs it.
-/

variable {n : Nat} {α : Type}

/-- A call on the store or on a part of a host, or the note of a request that leaves for another
host. -/
inductive Demand (n : Nat) where
  | store (call : Store.Call)
  | host (i : Fin n) (call : Executor.interface.Call)
  | note (h : Host) (r : Request)

def Demand.Answer : Demand n → Type
  | .store c => c.Answer
  | .host _ c => Executor.interface.Answer c
  | .note _ _ => Unit

abbrev Demand.interface (n : Nat) : Interface := ⟨Demand n, Demand.Answer⟩

/-- A task of the executor of a host. -/
def onHost (i : Fin n) (t : Task Executor.interface α) : Task (Demand.interface n) α :=
  t.interpret fun c => .ask (.host i c) .done

/-- What stays the same in a cluster. -/
structure Layout (n : Nat) where
  agent : Fin n → Agent
  network : Network n
  now : Time.Timestamp
  choose : (others : Nat) → Fin (others + 1)
  pace : Fin n → (c : Executor.interface.Call) → Executor.interface.Answer c → Nat

namespace Layout

/-- What a host does with something that is sent to it, until the sender has waited long enough. -/
def hears (l : Layout n) (i : Fin n) (c : Api.Call) :
    Task (Demand.interface n) (Option Api.Reply) :=
  onHost i ((Api.respond (l.agent i).executor l.now c).within (l.pace i) Peer.patience.nanoseconds)

def exchange (l : Layout n) (r : Http.Request) : Task (Demand.interface n) Http.Outcome :=
  match l.network.listener r.url with
  | none => .done .refused
  | some i => (l.hears i (Cluster.arrival r)).bind fun reply => .done (Cluster.heard reply)

def forward (l : Layout n) (h : Host) (r : Request) : Task (Demand.interface n) (Result Instance) :=
  (Peer.forward { h with address := l.network.dial h.address } r).run.interpret l.exchange

def carryOut (l : Layout n) (i : Fin n) : (c : Agent.Call) → Task (Demand.interface n) c.Answer
  | .store c => .ask (.store c) .done
  | .container c => .ask (.host i (.inl c)) .done
  | .wait w => .ask (.host i (.inr w)) .done
  | .now => .done l.now
  | .pick others => .done (l.choose others)
  | .forward h r => .ask (.note h r) fun _ => l.forward h r

/-- An operation of the agent of a host, as all that is asked for it in the cluster. -/
def asks (l : Layout n) (i : Fin n) (op : Agent → Agent.Op α) :
    Task (Demand.interface n) (Result α) :=
  (op (l.agent i)).run.interpret (l.carryOut i)

end Layout

namespace Cluster

def member (s : Cluster n) (i : Fin n) : Member := s.members.get i

def withMember (i : Fin n) (m : Member) (s : Cluster n) : Cluster n :=
  { s with members := s.members.set i m i.isLt }

def layout (s : Cluster n) : Layout n :=
  ⟨fun i => (s.member i).agent, s.network, s.now, s.choose, fun i => (s.member i).pace⟩

def noteForward (h : Host) (r : Request) (s : Cluster n) : Cluster n :=
  { s with forwards := s.forwards ++ [(h, r)] }

def answer : (d : Demand n) → Cluster n → d.Answer × Cluster n
  | .store c, s => ((Store.Disturbed.step c s.store).1,
      { s with store := (Store.Disturbed.step c s.store).2 })
  | .host i c, s => s.stepMember i c
  | .note h r, s => ((), s.noteForward h r)

variable {s : Cluster n} {l : Layout n}

/-- What no step of a member changes is the same for all members after a step of one. -/
theorem stepMember_of_kept {f : Member → α} (hkept : ∀ c m, f (Member.step c m).2 = f m)
    (i j : Fin n) (c : Executor.interface.Call) (s : Cluster n) :
    f ((s.stepMember i c).2.member j) = f (s.member j) := by
  change f ((s.members.set i (Member.step c s.members[i]).2)[j.val]) = f s.members[j.val]
  rw [Vector.getElem_set]
  split
  next hij =>
    rw [hkept]
    exact congrArg f (by simp [hij])
  next => rfl

theorem layout_stepMember (i : Fin n) (c : Executor.interface.Call) (s : Cluster n) :
    (s.stepMember i c).2.layout = s.layout := by
  rw [layout, layout]
  congr 1
  · exact funext fun j => stepMember_of_kept Member.agent_step i j c s
  · exact funext fun j => stepMember_of_kept Member.pace_step i j c s

theorem layout_answer (d : Demand n) (s : Cluster n) : (answer d s).2.layout = s.layout := by
  cases d with
  | store c => rfl
  | note h r => rfl
  | host i c => exact layout_stepMember i c s

theorem run_onHost (i : Fin n) (t : Task Executor.interface α) (s : Cluster n) :
    (onHost i t).run answer s = t.run (stepMember i) s := by
  rw [onHost, Task.run_interpret]
  exact Task.run_congr (fun c s => rfl) t s

/-- A cluster answers what comes of a call just as it answers the call itself. -/
theorem run_interpret {I : Interface} {f : (c : I.Call) → Task (Demand.interface n) (I.Answer c)}
    {world : (c : I.Call) → Cluster n → I.Answer c × Cluster n}
    (h : ∀ c u, u.layout = l → world c u = (f c).run answer u) (t : Task I α)
    (hs : s.layout = l) : t.run world s = (t.interpret f).run answer s := by
  rw [Task.run_interpret]
  refine Task.run_congr_of (P := fun u => u.layout = l) h ?_ t hs
  intro c u hu
  exact Task.run_invariant (fun d w hw => (layout_answer d w).trans hw) _ hu

theorem exchange_eq_run (r : Http.Request) (hs : s.layout = l) :
    exchange r s = (l.exchange r).run answer s := by
  subst hs
  rw [exchange, Layout.exchange]
  cases hlistener : s.network.listener r.url with
  | none =>
    have hlayout : s.layout.network.listener r.url = none := hlistener
    rw [hlayout]
    rfl
  | some i =>
    have hlayout : s.layout.network.listener r.url = some i := hlistener
    rw [hlayout]
    simp only [Task.run_map, Layout.hears, run_onHost]
    rfl

theorem forward_eq_run (h : Host) (r : Request) (hs : s.layout = l) :
    s.forward h r = (l.forward h r).run answer s := by
  have hdial : l.network = s.network := congrArg Layout.network hs.symm
  rw [forward, Layout.forward, hdial]
  exact run_interpret (fun c u hu => exchange_eq_run c hu) _ hs

theorem step_eq_run (i : Fin n) (c : Agent.Call) (hs : s.layout = l) :
    s.step i c = (l.carryOut i c).run answer s := by
  cases c with
  | store c => rfl
  | container c => rfl
  | wait w => rfl
  | now =>
    subst hs
    rfl
  | pick others =>
    subst hs
    rfl
  | forward h r =>
    have hnote : (s.noteForward h r).layout = l := by
      rw [← hs]
      rfl
    have hrun := Task.run_ask (I := Demand.interface n) answer (.note h r)
      (fun _ => l.forward h r) s
    exact (forward_eq_run h r hnote).trans hrun.symm

/-- An operation of an agent runs in a cluster as all that is asked for it. -/
theorem act_eq_run (i : Fin n) (op : Agent → Agent.Op α) (s : Cluster n) :
    s.act i op = (s.layout.asks i op).run answer s :=
  run_interpret (fun c _ hu => step_eq_run i c hu) _ rfl

end Cluster

end HostAgent
