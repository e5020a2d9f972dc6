import HostAgent.Identity
import HostAgent.Proofs.Agent.Beside
import HostAgent.Proofs.Store.Disturbances

namespace HostAgent

/-!
# What agents write

An agent writes the record that an operation is about, once at most and last, so that an operation
that fails has done nothing to the store. Operations on instances make requests of what they read
and write nothing.
-/

open Store

/-! ## Operations that only read -/

namespace Scheduler

/-- A call that is not meant to write to the store. -/
def Call.Still : Call → Prop
  | .store c => c.Reads
  | _ => True

theorem asks_ask {α : Type} {op key : String} {t : Store.Op α} (h : t.run.Asks Store.Call.Reads) :
    (ask op key t).run.Asks Call.Still := by
  have hstored : (t.run.interpret fun c => Task.call (I := interface) (.store c)).Asks Call.Still :=
    h.interpret fun _ hc => Task.asks_call hc
  exact hstored.map _

theorem asks_place (s : Scheduler) : s.place.run.Asks Call.Still := by
  refine (asks_ask (Space.asks_fetchAll _)).bind_run fun hosts => ?_
  cases hosts with
  | nil => exact Task.asks_throw _
  | cons h rest =>
    exact (Task.Asks.lift (Task.asks_call trivial)).bind_run fun _ => Task.asks_pure _

theorem asks_dispatch (s : Scheduler) (r : Request) : (s.dispatch r).run.Asks Call.Still := by
  rw [dispatch]
  split
  · exact Task.asks_call trivial
  · refine (asks_ask (Space.asks_fetch_map _ _)).bind_run fun h => ?_
    cases h with
    | none => exact Task.asks_throw _
    | some h => exact Task.asks_call trivial

theorem asks_schedule (s : Scheduler) (r : Request) : (s.schedule r).run.Asks Call.Still := by
  rw [schedule]
  split
  · exact (asks_place s).bind_run fun _ => asks_dispatch s _
  · exact asks_dispatch s r

end Scheduler

namespace Agent

variable {α β : Type}

/-- A call that is not meant to write to the store. -/
def Call.Still : Call → Prop
  | .store c => c.Reads
  | _ => True

theorem neverWrites_beside {t : Task interface α} (h : t.Asks Call.Still) :
    NeverWrites (beside t) := by
  refine neverWrites_of_asks (h.interpret fun c hc => ?_)
  cases c with
  | store c => exact Task.asks_call hc
  | container c | wait w | now | pick k | forward h r => exact Task.asks_call trivial

theorem asks_ask {op key : String} {t : Store.Op α} (h : t.run.Asks Store.Call.Reads) :
    (ask op key t).run.Asks Call.Still := by
  have hstored : (stored t).Asks Call.Still := h.interpret fun _ hc => Task.asks_call hc
  exact hstored.map _

theorem asks_within {what : String} {t : Op α} (h : t.run.Asks Call.Still) :
    (within what t).run.Asks Call.Still :=
  h.map _

section Readings

variable (a : Agent)

theorem asks_getHost (id : String) : (a.getHost id).run.Asks Call.Still :=
  asks_ask (Space.asks_fetch_map _ _)

theorem asks_listHosts : a.listHosts.run.Asks Call.Still :=
  (asks_ask (Space.asks_fetchAll _)).bind_run fun _ => Task.asks_pure _

theorem asks_getAddress (id : String) : (a.getAddress id).run.Asks Call.Still := by
  rw [getAddress]
  split
  · exact Task.asks_pure _
  · refine (asks_getHost a id).bind_run fun h => ?_
    cases h with
    | none => exact Task.asks_throw _
    | some h => exact Task.asks_pure _

theorem asks_getVolume (name : String) : (a.getVolume name).run.Asks Call.Still :=
  asks_ask (Space.asks_fetch_map _ _)

theorem asks_listVolumes : a.listVolumes.run.Asks Call.Still := asks_ask (Space.asks_fetchAll _)

theorem asks_getSettings : a.getSettings.run.Asks Call.Still := by
  refine (asks_ask (Space.asks_fetch_map _ _)).bind_run fun s => ?_
  cases s with
  | none => exact Task.asks_pure _
  | some s => exact Task.asks_pure _

theorem asks_reading {o : Operation} (h : o.isReading = true) :
    (o.op a).run.Asks Call.Still := by
  cases o with
  | getHost id => exact asks_getHost a id
  | listHosts => exact asks_listHosts a
  | getVolume name => exact asks_getVolume a name
  | listVolumes => exact asks_listVolumes a
  | getSettings => exact asks_getSettings a
  | createVolume v | updateVolume v | deleteVolume name | markBadReplica volume replica
  | setSettings s => cases h

end Readings

/-! ## Operations on instances -/

/-- What an agent offers besides the operations on records. -/
inductive Service where
  | getAddress (id : String)
  | createController (volume controller : String) (replicas : SortedMap Replica)
  | createReplica (volume replica : String)
  | startInstance (i : Instance)
  | stopInstance (i : Instance)
  | removeInstance (i : Instance)
  | process (r : Request)

namespace Service

def Value : Service → Type
  | .getAddress _ => String
  | .createController _ _ _ => Controller
  | .createReplica _ _ => Replica
  | .startInstance _ | .stopInstance _ | .removeInstance _ | .process _ => Instance

def op (a : Agent) : (s : Service) → Op s.Value
  | .getAddress id => a.getAddress id
  | .createController volume controller replicas => a.createController volume controller replicas
  | .createReplica volume replica => a.createReplica volume replica
  | .startInstance i => a.startInstance i
  | .stopInstance i => a.stopInstance i
  | .removeInstance i => a.removeInstance i
  | .process r => a.process r

end Service

section Services

variable (a : Agent)

/-- Requests are carried out on containers alone. -/
theorem asks_process (r : Request) : (a.process r).run.Asks Call.Still := by
  refine (Task.asks_of_forall (P := fun _ => True) (fun _ => trivial) _).interpret fun c _ => ?_
  rcases c with c | w <;> exact Task.asks_call trivial

theorem asks_schedulerCall {c : Scheduler.Call} (hc : c.Still) :
    (a.schedulerCall c).Asks Call.Still := by
  cases c with
  | store c => exact Task.asks_call hc
  | pick k => exact Task.asks_call trivial
  | run r => exact asks_process a r
  | forward h r => exact Task.asks_call trivial

theorem asks_schedule (r : Request) : (a.schedule r).run.Asks Call.Still :=
  (a.scheduler.asks_schedule r).interpret fun _ hc => asks_schedulerCall a hc

theorem asks_schedulableVolume (name : String) :
    (a.schedulableVolume name).run.Asks Call.Still := by
  refine (asks_getVolume a name).bind_run fun v => ?_
  cases v with
  | none => exact Task.asks_throw _
  | some v =>
    dsimp only
    split
    · exact Task.asks_throw _
    · exact Task.asks_pure _

theorem asks_lifecycle (action : Action) (verb : String) (i : Instance) :
    (a.lifecycle action verb i).run.Asks Call.Still := by
  rw [lifecycle]
  split
  · exact asks_within (asks_schedule a _)
  · exact Task.asks_throw _

theorem asks_service (s : Service) : (s.op a).run.Asks Call.Still := by
  cases s with
  | getAddress id => exact asks_getAddress a id
  | createController volume controller replicas =>
    refine asks_within ((asks_schedulableVolume a volume).bind_run fun v => ?_)
    exact (asks_schedule a _).bind_run fun _ => Task.asks_pure _
  | createReplica volume replica =>
    refine asks_within ((asks_schedulableVolume a volume).bind_run fun v => ?_)
    exact (asks_schedule a _).bind_run fun _ => Task.asks_pure _
  | startInstance i => exact asks_lifecycle a _ _ i
  | stopInstance i => exact asks_lifecycle a _ _ i
  | removeInstance i => exact asks_lifecycle a _ _ i
  | process r => exact asks_process a r

end Services

/-! ## Operations that write -/

theorem writesLast_ask {op key : String} {t : Store.Op α} {owned? : α → Option String}
    (h : WritesLast owned? (t.run.inl : Task (Store.interface.sum own) (Except Store.Error α))) :
    WritesLast owned? (beside (ask op key t).run) := by
  rw [beside_ask]
  exact h.map fun x _ hx => ⟨x, rfl, hx⟩

theorem Deed.writesLast (a : Agent) (d : Deed) :
    WritesLast (fun _ => some (d.call a).key) (beside (d.operation.op a).run) := by
  intro l u hl
  rw [d.beside_operation] at hl
  obtain ⟨w, rfl, hpath⟩ := hl.of_map
  rcases ClientCall.path_task hpath with ⟨hl, -⟩ | ⟨p, x, o, rfl, hp, hx, rfl, hwrote⟩
  · exact .inl hl
  · obtain ⟨b, hb⟩ := (conclude_eq_ok_iff hpath).mpr ⟨o, rfl, hwrote⟩
    exact .inr ⟨p, x, b, _, rfl, hp, hx, rfl, congrArg Task.done hb⟩

/-- The key of the record that an operation is about, if it is to write it. -/
def Operation.key? (a : Agent) : Operation → Option String
  | .createVolume v | .updateVolume v => some (a.space.volumeKey v.name)
  | .deleteVolume name | .markBadReplica name _ => some (a.space.volumeKey name)
  | .setSettings _ => some a.space.settingsKey
  | .getHost _ | .listHosts | .getVolume _ | .listVolumes | .getSettings => none

theorem writesLast_updateVolume (a : Agent) (v : Volume) :
    WritesLast (fun _ => some (a.space.volumeKey v.name)) (beside (a.updateVolume v).run) := by
  rw [updateVolume, ExceptT.run_bind]
  change WritesLast _ (beside (Task.bind (a.getVolume v.name).run _))
  rw [beside_bind]
  refine (neverWrites_beside (asks_getVolume a v.name)).bind_writesLast fun r => ?_
  rcases r with e | _ | u
  · exact (neverWrites_of_asks (Task.asks_done _)).writesLast
  · exact (neverWrites_of_asks (Task.asks_done _)).writesLast
  · exact writesLast_ask (Space.writesLast_put _ v)

theorem writesLast_operation (a : Agent) (o : Operation) :
    WritesLast (fun _ => o.key? a) (beside (o.op a).run) := by
  by_cases hreading : o.isReading = true
  · exact (neverWrites_beside (asks_reading a hreading)).writesLast
  cases o with
  | createVolume v => exact Deed.writesLast a (.create v)
  | updateVolume v => exact writesLast_updateVolume a v
  | deleteVolume name => exact Deed.writesLast a (.delete name)
  | markBadReplica volume replica => exact Deed.writesLast a (.mark volume replica)
  | setSettings s => exact writesLast_ask (Space.writesLast_put _ s)
  | getHost id | listHosts | getVolume name | listVolumes | getSettings =>
    exact absurd rfl hreading

end Agent

namespace Identity

/-- The storing of a host, among the calls of its registration. -/
theorem swap_store (space : Space) (host : Host) :
    (ExceptT.run do
      ExceptT.mk ((Task.inr (I := interface) (space.setHost host).run).bind fun r =>
        .done (r.mapError (AgentError.store "register" (space.hostKey host.uuid))))
      return host).swap =
      (space.setHost host).run.inl.bind fun r => .done ((r.mapError
        (.store "register" (space.hostKey host.uuid))).map fun _ => host) := by
  rw [ExceptT.run_bind]
  change Task.swap (Task.bind (Task.bind _ _) _) = _
  rw [Task.swap_bind, Task.swap_bind, Task.swap_inr, Task.bind_assoc]
  refine congrArg _ (funext fun r => ?_)
  rcases r with e | _ <;> rfl

theorem writesLast_register (space : Space) (dir address : String) :
    WritesLast (fun h : Host => some (space.hostKey h.uuid))
      (register space dir address).run.swap := by
  rw [register, ExceptT.run_bind]
  change WritesLast _ (Task.swap (Task.bind (Task.bind _ _) _))
  rw [Task.swap_bind, Task.swap_bind, Task.swap_inl]
  refine ((neverWrites_inr _).map _).bind_writesLast fun r => ?_
  rcases r with e | host
  · exact (neverWrites_of_asks (Task.asks_done _)).writesLast
  · have hstore := Space.writesLast_put (M := interface) (space.hostKey host.uuid) host
    change WritesLast _ (Task.swap (ExceptT.run _))
    rw [swap_store]
    exact hstore.map fun _ _ h => ⟨host, rfl, h⟩

end Identity

namespace Agent

/-- Every operation on records takes effect as a whole or not at all, whatever calls fail and
whatever rivals do: it writes its own record, once at most and last, and unless it has succeeded the
store is as the rivals alone would have left it. Readings and operations on instances never
write. -/
theorem operations_atomic :
    (∀ {M : Interface} (s : Space) (o : Space.Operation M), Atomic (o.owned? s) (o.change s).run ∧
      (o.isReading = true → NeverWrites (o.change s).run)) ∧
    (∀ (a : Agent) (o : Operation), Atomic (fun _ => o.key? a) (beside (o.op a).run) ∧
      (o.isReading = true → NeverWrites (beside (o.op a).run))) ∧
    (∀ (space : Space) (dir address : String),
      Atomic (fun h : Host => some (space.hostKey h.uuid))
        (Identity.register space dir address).run.swap) ∧
    ∀ (a : Agent) (s : Service), NeverWrites (beside (s.op a).run) := by
  refine ⟨?_, ?_, ?_, ?_⟩
  · intro M s o
    exact ⟨(o.writesLast s).atomic,
      fun h => neverWrites_of_asks (Space.Operation.asks_still h)⟩
  · intro a o
    exact ⟨(writesLast_operation a o).atomic, fun h => neverWrites_beside (asks_reading a h)⟩
  · intro space dir address
    exact (Identity.writesLast_register space dir address).atomic
  · intro a s
    exact neverWrites_beside (asks_service a s)

/-- A volume is stored, a rival is to delete it within the first conditional write, and the second
reading is to fail. -/
def besieged : Disturbed where
  memory := Memory.empty.write "/volumes/" (Record.text Volume.blank)
  faults m := if m = .get then [none, some (.unavailable "gone")] else []
  rivals := [.delete]
  calls := []

def noAnswers : (c : Interface.nothing.Call) → Interface.nothing.Answer c := Empty.rec

def rewriting : Space.Operation Interface.nothing := .changeVolume "" fun u => .done u

theorem operations_atomic_besieged :
    ((rewriting.change ⟨""⟩).run.run (Disturbed.stepBeside noAnswers) besieged).1 =
        .error (.unavailable "gone") ∧
      (∃ rivals, Disturbed.Acts [.delete] rivals ∧
        ((rewriting.change ⟨""⟩).run.run (Disturbed.stepBeside noAnswers) besieged).2.memory =
          after rivals besieged.memory) ∧
      NeverWrites ((Space.Operation.getSettings (M := Interface.nothing)).change ⟨""⟩).run := by
  obtain ⟨hrecords, -, -, -⟩ := operations_atomic
  let e : Entry := ⟨Record.text Volume.blank, 1⟩
  let d₁ := (Disturbed.step (.get "/volumes/") besieged).2
  let d₂ := (Disturbed.step (.compareAndSet "/volumes/" e.value 1) d₁).2
  let d₃ := (Disturbed.step (.get "/volumes/") d₂).2
  have hget : besieged.memory.get? "/volumes/" = some e := by simp [besieged, Memory.empty, e]
  have hread : Disturbed.step (.get "/volumes/") besieged = (.ok (some e), d₁) := by
    rw [← hget]
    rfl
  have hwrite : Disturbed.step (.compareAndSet "/volumes/" e.value 1) d₁ =
      (.error (.conflict "/volumes/"), d₂) := rfl
  have hagain : Disturbed.step (.get "/volumes/") d₂ = (.error (.unavailable "gone"), d₃) := rfl
  have hround := Space.changeRounds_succ (M := Interface.nothing) "/volumes/" fun u => .done u
  have hrun : (rewriting.change ⟨""⟩).run.run (Disturbed.stepBeside noAnswers) besieged =
      (.error (.unavailable "gone"), d₃) := calc
    _ = (Space.afterRead _ _ _ _).run _ d₁ := Disturbed.run_eq (hround 4) hread
    _ = (Space.afterWrite _ _ _ _ _).run _ d₂ :=
      Disturbed.run_eq (Space.afterRead_text _ _ _ _ _) hwrite
    _ = (Space.afterRead _ _ _ _).run _ d₃ := Disturbed.run_eq (hround 3) hagain
    _ = _ := rfl
  have herror : ((rewriting.change ⟨""⟩).run.run (Disturbed.stepBeside noAnswers) besieged).1 =
      .error (.unavailable "gone") := by rw [hrun]
  exact ⟨herror, (hrecords ⟨""⟩ rewriting).1.disturbed noAnswers besieged herror,
    (hrecords ⟨""⟩ .getSettings).2 rfl⟩

end Agent

end HostAgent
