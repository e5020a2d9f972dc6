import HostAgent.Agent
import HostAgent.Proofs.Cluster.Schedule
import HostAgent.Proofs.Container.Objections

namespace HostAgent.Agent

/-!
# Work that is turned down

What an agent is asked to do with an instance is looked at twice, once by the agent that is asked
and once by the executor of the host that the instance is on. Either turns down what says too little
before it asks anything of the store, of another host or of an engine. Work that passes the agent
leaves it as one request, which says of the instance what the agent was told and nothing besides.
-/

variable {a : Agent} {i : Instance} {r : Request}

/-! ## Requests for a named host -/

/-- A request for the own host is carried out by the own executor. -/
theorem schedule_here (hto : r.target.hostId = a.host.uuid) (hne : r.target.hostId ≠ "") :
    (a.schedule r).run = (a.process r).run := by
  change ((a.scheduler.schedule r).run.interpret a.schedulerCall) = _
  rw [Scheduler.schedule_named hne, Scheduler.dispatch_here hto]
  exact Task.bind_done _

/-- What becomes of a request for another host, by what is found of this host in the store. -/
def routed (a : Agent) (r : Request) :
    Except Store.Error (Option Host) → Task interface (Result Instance)
  | .error e => .done (.error (.store "get" (a.space.hostKey r.target.hostId) e))
  | .ok none => .done (.error (.notFound "host" r.target.hostId))
  | .ok (some h) => .ask (.forward h r) .done

theorem schedule_there (hto : r.target.hostId ≠ a.host.uuid) (hne : r.target.hostId ≠ "") :
    (a.schedule r).run =
      .ask (I := interface) (.store (.get (a.space.hostKey r.target.hostId))) fun answer =>
        a.routed r (Store.Space.found answer) := by
  change ((a.scheduler.schedule r).run.interpret a.schedulerCall) = _
  rw [Scheduler.schedule_named hne, Scheduler.dispatch_there hto]
  refine congrArg (Task.ask (I := interface) _) (funext fun answer => ?_)
  change (a.scheduler.routed r answer).interpret a.schedulerCall = _
  unfold Scheduler.routed
  match Store.Space.found (α := Host) answer with
  | .error e | .ok none | .ok (some h) => rfl

/-! ## Instances that are there -/

/-- What can be done with an instance that was created. -/
inductive Handling where
  | start
  | stop
  | remove
  deriving DecidableEq

namespace Handling

def op (a : Agent) : Handling → Instance → Op Instance
  | .start => a.startInstance
  | .stop => a.stopInstance
  | .remove => a.removeInstance

def verb : Handling → String
  | .start => "start"
  | .stop => "stop"
  | .remove => "remove"

def action : Handling → Action
  | .start => .startInstance
  | .stop => .stopInstance
  | .remove => .deleteInstance

/-- The one request that is made: the identifier, the role and the host of the instance, and no
payload. -/
def request (k : Handling) (i : Instance) : Request where
  action := k.action
  target := ⟨i.id, i.role, i.hostId⟩
  envelope := ⟨"docker", none⟩

/-- The call on an engine that the request begins with. -/
def call (k : Handling) (stop : Time.Span) (id : String) : Container.Call :=
  match k with
  | .start => .start id
  | .stop => .stop id stop
  | .remove => .remove id true

theorem op_eq (k : Handling) (a : Agent) (i : Instance) :
    k.op a i = a.lifecycle k.action k.verb i := by
  cases k <;> rfl

theorem begins (k : Handling) (x : Executor) (i : Instance) :
    x.Begins (k.request i) (k.call x.budgets.stop i.id) := by
  cases k with
  | start => exact .start rfl
  | stop => exact .stop rfl
  | remove => exact .remove rfl

/-- What an error of the one request is wrapped in. -/
def context (k : Handling) (i : Instance) : String := s!"fail to {k.verb} instance {i.id}"

end Handling

/-- An instance of which too little is known to act on it. -/
def IsIncomplete (i : Instance) : Prop := i.id = "" ∨ i.hostId = "" ∨ i.role = .none

theorem isComplete_iff : isComplete i = true ↔ ¬ IsIncomplete i := by
  simp [isComplete, IsIncomplete, and_assoc]

variable {k : Handling}

theorem op_of_isIncomplete (h : IsIncomplete i) :
    (k.op a i).run = .done (.error (incomplete k.verb i)) := by
  have hcomplete : ¬ isComplete i = true := fun hc => isComplete_iff.mp hc h
  rw [k.op_eq, lifecycle, if_neg hcomplete]
  rfl

theorem op_of_complete (h : ¬ IsIncomplete i) :
    (k.op a i).run = (within (k.context i) (a.schedule (k.request i))).run := by
  rw [k.op_eq, lifecycle, if_pos (isComplete_iff.mpr h)]
  rfl

/-- On the own host the first thing asked is the call on the engine. -/
theorem op_here (h : ¬ IsIncomplete i) (hto : i.hostId = a.host.uuid) :
    (k.op a i).run = (within (k.context i) (a.process (k.request i))).run ∧
      ∃ next, (k.op a i).run =
        .ask (I := interface) (.container (k.call a.budgets.stop i.id)) next := by
  have hid : i.id ≠ "" := fun hempty => h (.inl hempty)
  have hne : i.hostId ≠ "" := fun hempty => h (.inr (.inl hempty))
  have hrun : (k.op a i).run = (within (k.context i) (a.process (k.request i))).run := by
    rw [op_of_complete h, within, ExceptT.run_mk, schedule_here (r := k.request i) hto hne]
    rfl
  obtain ⟨next, hnext⟩ := (k.begins a.executor i).process rfl hid
  refine ⟨hrun, fun answer => ((next answer).interpret executorCall).bind fun r =>
    .done (r.mapError (.context (k.context i))), ?_⟩
  rw [hrun]
  change Task.bind ((a.executor.process (k.request i)).run.interpret executorCall) _ = _
  rw [hnext]
  rfl

/-- For another host its record is read, and then the request leaves for this host or not at all. -/
theorem op_there (h : ¬ IsIncomplete i) (hto : i.hostId ≠ a.host.uuid) :
    (k.op a i).run =
      .ask (I := interface) (.store (.get (a.space.hostKey i.hostId))) fun answer =>
        (a.routed (k.request i) (Store.Space.found answer)).bind fun r =>
          .done (r.mapError (.context (k.context i))) := by
  have hne : i.hostId ≠ "" := fun hempty => h (.inr (.inl hempty))
  rw [op_of_complete h, within, ExceptT.run_mk, schedule_there (r := k.request i) hto hne]
  rfl

/-- An operation on an instance asks for nothing exactly if the instance is incomplete. Otherwise it
is one request, which is carried out on this host or leaves for the one that is named. -/
structure Handled (a : Agent) (k : Handling) (i : Instance) : Prop where
  refused : (∃ e, (k.op a i).run = .done (.error e) ∧ e.kind = .invalidArgument) ↔ IsIncomplete i
  error : IsIncomplete i → (k.op a i).run = .done (.error (incomplete k.verb i))
  here : ¬ IsIncomplete i → i.hostId = a.host.uuid →
    (k.op a i).run = (within (k.context i) (a.process (k.request i))).run ∧
      ∃ next, (k.op a i).run =
        .ask (I := interface) (.container (k.call a.budgets.stop i.id)) next
  there : ¬ IsIncomplete i → i.hostId ≠ a.host.uuid →
    (k.op a i).run =
      .ask (I := interface) (.store (.get (a.space.hostKey i.hostId))) fun answer =>
        (a.routed (k.request i) (Store.Space.found answer)).bind fun r =>
          .done (r.mapError (.context (k.context i)))

theorem handled (a : Agent) (k : Handling) (i : Instance) : a.Handled k i where
  refused := by
    constructor
    · rintro ⟨e, hrun, -⟩
      by_contra hcomplete
      by_cases hto : i.hostId = a.host.uuid
      · obtain ⟨-, next, hask⟩ := op_here (k := k) hcomplete hto
        rw [hask] at hrun
        cases hrun
      · rw [op_there hcomplete hto] at hrun
        cases hrun
    · exact fun h => ⟨_, op_of_isIncomplete h, rfl⟩
  error := op_of_isIncomplete
  here := op_here
  there := op_there

/-- Whatever is wrong with a request or with an instance, the first thing that is wrong is the
error, and nothing was asked of an engine, a wait, the store or another host. Everything else is
carried out: a request begins with the call of its action, and an operation on an instance is one
request for this instance. -/
theorem rejected_before_any_call (x : Executor) (r : Request) (a : Agent) (k : Handling)
    (i : Instance) : x.Screened r ∧ a.Handled k i :=
  ⟨x.screened r, handled a k i⟩

end HostAgent.Agent
