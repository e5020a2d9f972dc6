import HostAgent.Executor
import HostAgent.Proofs.Task.Protocol

namespace HostAgent.Executor

/-!
# Launching a container

The creation of a controller or a replica is a protocol with the engine: a container is created,
started and inspected, and it is removed again if one of these fails. Only one that was started and
inspected is left to the waits that may follow.
-/

/-- How far the creation of an instance has come, with the identifier of its container. -/
inductive Phase where
  | fresh
  | created (id : String)
  | started (id : String)
  /-- The container has to be removed. -/
  | doomed (id : String)
  | kept (id : String)
  /-- No container is left of that which there was, if there was one. -/
  | gone (id : Option String)
  deriving DecidableEq

def Phase.id? : Phase → Option String
  | .fresh => none
  | .created id | .started id | .doomed id | .kept id => some id
  | .gone id => id

/-- The creation of a container of the given name, if there is one to be created. -/
def creation (name : Option String) : Protocol interface Phase where
  allows
    | .fresh, .inl (.create spec) => name = some spec.name
    | .created id, .inl (.start id') => id' = id
    | .started id, .inl (.inspect id') => id' = id
    | .doomed id, .inl (.remove id' _) => id' = id
    | .kept _, .inr _ => True
    | _, _ => False
  next
    | .fresh, .inl (.create _), (.ok id : Except Container.Error String) => .created id
    | .fresh, .inl (.create _), (.error _ : Except Container.Error String) => .gone none
    | .created id, .inl (.start _), (.ok _ : Except Container.Error Unit) => .started id
    | .created id, .inl (.start _), (.error _ : Except Container.Error Unit) => .doomed id
    | .started id, .inl (.inspect _), (.ok _ : Except Container.Error Container.Status) => .kept id
    | .started id, .inl (.inspect _), (.error _ : Except Container.Error Container.Status) =>
      .doomed id
    | .doomed id, .inl (.remove _ _), _ => .gone (some id)
    | p, _, _ => p

/-- What the creation of a container of the given name does in each phase. -/
inductive Due (name : Option String) : Phase → interface.Call → Prop
  | create {spec : Container.Spec} (h : name = some spec.name) :
    Due name .fresh (.inl (.create spec))
  | start (id : String) : Due name (.created id) (.inl (.start id))
  | inspect (id : String) : Due name (.started id) (.inl (.inspect id))
  | remove (id : String) (volumes : Bool) : Due name (.doomed id) (.inl (.remove id volumes))
  | wait (id : String) (w : Probe.Wait) : Due name (.kept id) (.inr w)

theorem due_of_allows {name : Option String} {p : Phase} {c : interface.Call}
    (h : (creation name).allows p c) : Due name p c := by
  cases p with
  | fresh =>
    rcases c with (_ | spec | _ | _ | _ | _) | w
    case inl.create => exact .create h
    all_goals exact h.elim
  | created id =>
    rcases c with (_ | _ | id' | _ | _ | _) | w
    case inl.start =>
      obtain rfl : id' = id := h
      exact .start id'
    all_goals exact h.elim
  | started id =>
    rcases c with (_ | _ | _ | _ | _ | id') | w
    case inl.inspect =>
      obtain rfl : id' = id := h
      exact .inspect id'
    all_goals exact h.elim
  | doomed id =>
    rcases c with (_ | _ | _ | _ | ⟨id', volumes⟩ | _) | w
    case inl.remove =>
      obtain rfl : id' = id := h
      exact .remove id' volumes
    all_goals exact h.elim
  | kept id =>
    rcases c with (_ | _ | _ | _ | _ | _) | w
    case inr => exact .wait id w
    all_goals exact h.elim
  | gone id =>
    rcases c with (_ | _ | _ | _ | _ | _) | w
    all_goals exact h.elim

def Launched : Phase → Except AgentError Instance → Prop
  | .kept _, r => ∃ i, r = .ok i
  | .gone _, r => ∃ op target e, r = .error (.runtime op target e)
  | _, _ => False

/-- Whether a result says that there is a container: it was launched, and at most it was not ready
in time. -/
def Stays : Except AgentError Instance → Prop
  | .ok _ => True
  | .error (.context _ (.readiness _)) => True
  | .error _ => False

/-- What the creation of an instance comes to. -/
def Settled : Phase → Except AgentError Instance → Prop
  | .kept _, r => Stays r
  | .gone _, r | .fresh, r => ¬ Stays r
  | _, _ => False

theorem launch_obeys (x : Executor) (spec : Container.Spec) (role : Role) :
    (x.launch spec role).run.Obeys (creation (some spec.name)) Launched .fresh := by
  refine Task.obeys_ask (I := interface) (c := .inl (.create spec)) rfl fun a => ?_
  match a with
  | .error e => exact ⟨_, _, _, rfl⟩
  | .ok id =>
    refine Task.obeys_ask (I := interface) (c := .inl (.start id)) rfl fun a => ?_
    match a with
    | .error e =>
      refine Task.obeys_ask (I := interface) (c := .inl (.remove id true)) rfl fun a => ?_
      match a with
      | .error _ => exact ⟨_, _, _, rfl⟩
      | .ok () => exact ⟨_, _, _, rfl⟩
    | .ok () =>
      refine Task.obeys_ask (I := interface) (c := .inl (.inspect id)) rfl fun a => ?_
      match a with
      | .error e =>
        refine Task.obeys_ask (I := interface) (c := .inl (.remove id true)) rfl fun a => ?_
        match a with
        | .error _ => exact ⟨_, _, _, rfl⟩
        | .ok () => exact ⟨_, _, _, rfl⟩
      | .ok s => exact ⟨_, rfl⟩

def newName? (r : Request) : Option String :=
  match r.payload with
  | .ok (.createController p) => some p.instanceName
  | .ok (.createReplica p) => some p.instanceName
  | _ => none

def Creates (r : Request) : Prop := r.action = .createController ∨ r.action = .createReplica

theorem wait_obeys (w : Probe.Wait) (what : String) {name : Option String} {p : Phase}
    (hp : ∃ id, p = .kept id) :
    (wait w what).run.Obeys (creation name)
      (fun q r => q = p ∧ (r = .ok () ∨ ∃ e, r = .error (.context what (.readiness e)))) p := by
  obtain ⟨id, rfl⟩ := hp
  refine Task.obeys_ask (I := interface) (c := .inr w) trivial fun a => ?_
  match a with
  | .ok () => exact ⟨rfl, .inl rfl⟩
  | .error e => exact ⟨rfl, .inr ⟨e, rfl⟩⟩

theorem Launched.settled {p : Phase} {r : Except AgentError Instance} (h : Launched p r) :
    Settled p r := by
  cases p with
  | kept id =>
    obtain ⟨i, rfl⟩ := h
    trivial
  | gone id =>
    obtain ⟨op, target, e, rfl⟩ := h
    exact fun h => h
  | fresh | created id | started id | doomed id => exact h.elim

theorem createReplica_obeys (x : Executor) (p : ReplicaPayload) :
    (x.createReplica p).run.Obeys (creation (some p.instanceName)) Settled .fresh :=
  (x.launch_obeys (replicaSpec p) .replica).mono fun _ _ h => h.settled

theorem createController_obeys (x : Executor) (p : ControllerPayload) :
    (x.createController p).run.Obeys (creation (some p.instanceName)) Settled .fresh := by
  rw [createController, ExceptT.run_bind]
  refine (x.launch_obeys (controllerSpec p) .controller).bind ?_
  intro q a h
  cases q with
  | kept id =>
    obtain ⟨i, rfl⟩ := h
    simp only [ExceptT.run_bind]
    refine (wait_obeys _ _ ⟨id, rfl⟩).bind ?_
    rintro _ _ ⟨rfl, rfl | ⟨e, rfl⟩⟩
    · refine (wait_obeys _ _ ⟨id, rfl⟩).bind ?_
      rintro _ _ ⟨rfl, rfl | ⟨e, rfl⟩⟩
      · exact trivial
      · exact trivial
    · exact trivial
  | gone id =>
    obtain ⟨op, target, e, rfl⟩ := h
    exact fun h => h
  | fresh | created id | started id | doomed id => exact h.elim

theorem Creates.payload_cases {r : Request} (hr : Creates r) :
    (∃ e, r.payload = .error e) ∨ (∃ p, r.payload = .ok (.createController p)) ∨
      ∃ p, r.payload = .ok (.createReplica p) := by
  rcases hr with hr | hr
  · simp only [Request.payload, hr]
    cases (r.attached : Except PayloadError ControllerPayload) with
    | error e => exact .inl ⟨e, rfl⟩
    | ok p => exact .inr (.inl ⟨p, rfl⟩)
  · simp only [Request.payload, hr]
    cases (r.attached : Except PayloadError ReplicaPayload) with
    | error e => exact .inl ⟨e, rfl⟩
    | ok p => exact .inr (.inr ⟨p, rfl⟩)

theorem process_obeys (x : Executor) {r : Request} (hr : Creates r) :
    (x.process r).run.Obeys (creation (newName? r)) Settled .fresh := by
  simp only [process]
  split
  · exact fun h => h
  split
  · exact fun h => h
  unfold newName?
  rcases hr.payload_cases with ⟨e, hp⟩ | ⟨p, hp⟩ | ⟨p, hp⟩
  · rw [hp]
    cases e <;> exact fun h => h
  · rw [hp]
    exact x.createController_obeys p
  · rw [hp]
    exact x.createReplica_obeys p

end HostAgent.Executor
