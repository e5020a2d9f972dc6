import HostAgent.Proofs.Container.Launch

namespace HostAgent.Executor

/-!
# What is said against a request

A request is looked at before anything is asked of the engine: whether it is meant for this kind of
engine, names an instance, and has an action that is known, with a payload that can be read if the
action needs one. The first thing that is wrong is the error. A request with nothing wrong begins
with the call of its action.
-/

variable {x : Executor} {r : Request} {e : AgentError} {c : Container.Call} {p : Payload}

/-- What is wrong with a request, each thing if those before it are in order. -/
inductive Objection (r : Request) : AgentError → Prop
  | engine (h : r.envelope.orchestrator ≠ "docker") :
      Objection r (.wrongOrchestrator r.envelope.orchestrator)
  | unnamed (hengine : r.envelope.orchestrator = "docker") (h : r.target.id = "") :
      Objection r (.invalidArgument "schedule request has an empty instance ID")
  | unknown (hengine : r.envelope.orchestrator = "docker") (hnamed : r.target.id ≠ "")
      {tag : String} (h : r.action = .unknown tag) : Objection r (.unknownAction tag)
  | missing (hengine : r.envelope.orchestrator = "docker") (hnamed : r.target.id ≠ "")
      (hcreates : Creates r) (h : r.envelope.data = none) :
      Objection r (.payload (.missing r.action.tag))
  | controller (hengine : r.envelope.orchestrator = "docker") (hnamed : r.target.id ≠ "")
      (haction : r.action = .createController) {v : Json.Value} {report : Json.Report}
      (hdata : r.envelope.data = some v)
      (h : (Record.ofJson v.json : Except Json.Report ControllerPayload) = .error report) :
      Objection r (.payload (.malformed "create-controller" report))
  | replica (hengine : r.envelope.orchestrator = "docker") (hnamed : r.target.id ≠ "")
      (haction : r.action = .createReplica) {v : Json.Value} {report : Json.Report}
      (hdata : r.envelope.data = some v)
      (h : (Record.ofJson v.json : Except Json.Report ReplicaPayload) = .error report) :
      Objection r (.payload (.malformed "create-replica" report))

/-- The call with which a request begins that nothing is wrong with. -/
inductive Begins (x : Executor) (r : Request) : Container.Call → Prop
  | controller (haction : r.action = .createController) {v : Json.Value} {p : ControllerPayload}
      (hdata : r.envelope.data = some v) (h : Record.ofJson v.json = .ok p) :
      Begins x r (.create (controllerSpec p))
  | replica (haction : r.action = .createReplica) {v : Json.Value} {p : ReplicaPayload}
      (hdata : r.envelope.data = some v) (h : Record.ofJson v.json = .ok p) :
      Begins x r (.create (replicaSpec p))
  | start (haction : r.action = .startInstance) : Begins x r (.start r.target.id)
  | stop (haction : r.action = .stopInstance) : Begins x r (.stop r.target.id x.budgets.stop)
  | remove (haction : r.action = .deleteInstance) : Begins x r (.remove r.target.id true)

/-! ## Carrying out -/

/-- How a payload is carried out. -/
def handle (x : Executor) (r : Request) : Payload → Op Instance
  | .createController p => x.createController p
  | .createReplica p => x.createReplica p
  | .startInstance => x.start r.target.id r.target.role
  | .stopInstance => x.stop r.target.id r.target.role
  | .deleteInstance => Executor.remove r.target.id r.target.role

theorem process_eq_handle (hengine : r.envelope.orchestrator = orchestrator)
    (hnamed : r.target.id ≠ "") (hp : r.payload = .ok p) : x.process r = x.handle r p := by
  rw [process, if_neg (not_not.mpr hengine)]
  simp only [if_neg hnamed, hp]
  cases p <;> rfl

theorem process_unread {f : PayloadError} (hengine : r.envelope.orchestrator = orchestrator)
    (hnamed : r.target.id ≠ "") (hp : r.payload = .error f) :
    (x.process r).run = .done (.error (.ofPayloadError f)) := by
  rw [process, if_neg (not_not.mpr hengine)]
  simp only [if_neg hnamed, hp]
  rfl

theorem payload_of_creates (hcreates : Creates r) (hdata : r.envelope.data = none) :
    r.payload = .error (.missing r.action.tag) := by
  rcases hcreates with haction | haction <;>
    simp only [Request.payload, Request.attached, haction, hdata] <;> rfl

/-- A request that something is wrong with asks for nothing. -/
theorem Objection.process (h : Objection r e) : (x.process r).run = .done (.error e) := by
  cases h with
  | engine h =>
    have hother : r.envelope.orchestrator ≠ orchestrator := h
    rw [Executor.process, if_pos hother]
    rfl
  | unnamed hengine h =>
    have hself : ¬ r.envelope.orchestrator ≠ orchestrator := not_not.mpr hengine
    rw [Executor.process, if_neg hself]
    simp only [if_pos h]
    rfl
  | unknown hengine hnamed h =>
    refine process_unread (f := .unknownAction _) hengine hnamed ?_
    rw [Request.payload, h]
  | missing hengine hnamed hcreates h =>
    exact process_unread hengine hnamed (payload_of_creates hcreates h)
  | controller hengine hnamed haction hdata h =>
    refine process_unread (f := .malformed "create-controller" _) hengine hnamed ?_
    simp only [Request.payload, Request.attached, haction, hdata, h]
    rfl
  | replica hengine hnamed haction hdata h =>
    refine process_unread (f := .malformed "create-replica" _) hengine hnamed ?_
    simp only [Request.payload, Request.attached, haction, hdata, h]
    rfl

/-- The payload with which a request begins, and the call that it leads to. -/
theorem Begins.payload (h : Begins x r c) :
    ∃ p, r.payload = .ok p ∧ ∃ next, (x.handle r p).run = .ask (I := interface) (.inl c) next := by
  cases h with
  | @controller haction v p hdata h =>
    refine ⟨.createController p, ?_, _, rfl⟩
    simp only [Request.payload, Request.attached, haction, hdata, h]
    rfl
  | @replica haction v p hdata h =>
    refine ⟨.createReplica p, ?_, _, rfl⟩
    simp only [Request.payload, Request.attached, haction, hdata, h]
    rfl
  | start haction => exact ⟨.startInstance, by rw [Request.payload, haction], _, rfl⟩
  | stop haction => exact ⟨.stopInstance, by rw [Request.payload, haction], _, rfl⟩
  | remove haction => exact ⟨.deleteInstance, by rw [Request.payload, haction], _, rfl⟩

theorem Begins.process (h : Begins x r c) (hengine : r.envelope.orchestrator = "docker")
    (hnamed : r.target.id ≠ "") :
    ∃ next, (x.process r).run = .ask (I := interface) (.inl c) next := by
  obtain ⟨p, hp, next, hnext⟩ := h.payload
  rw [process_eq_handle hengine hnamed hp]
  exact ⟨next, hnext⟩

/-- Either something is wrong with a request, or it has a call to begin with. -/
theorem objection_or_begins (x : Executor) (r : Request) :
    (∃ e, Objection r e) ∨
      (r.envelope.orchestrator = "docker" ∧ r.target.id ≠ "") ∧ ∃ c, Begins x r c := by
  by_cases hengine : r.envelope.orchestrator = "docker"
  swap
  · exact .inl ⟨_, .engine hengine⟩
  by_cases hnamed : r.target.id = ""
  · exact .inl ⟨_, .unnamed hengine hnamed⟩
  have hbegins : ∀ {c}, Begins x r c →
      (r.envelope.orchestrator = "docker" ∧ r.target.id ≠ "") ∧ ∃ c, Begins x r c :=
    fun h => ⟨⟨hengine, hnamed⟩, _, h⟩
  cases haction : r.action with
  | createController =>
    cases hdata : r.envelope.data with
    | none => exact .inl ⟨_, .missing hengine hnamed (.inl haction) hdata⟩
    | some v =>
      cases hread : (Record.ofJson v.json : Except Json.Report ControllerPayload) with
      | error report => exact .inl ⟨_, .controller hengine hnamed haction hdata hread⟩
      | ok p => exact .inr (hbegins (.controller haction hdata hread))
  | createReplica =>
    cases hdata : r.envelope.data with
    | none => exact .inl ⟨_, .missing hengine hnamed (.inr haction) hdata⟩
    | some v =>
      cases hread : (Record.ofJson v.json : Except Json.Report ReplicaPayload) with
      | error report => exact .inl ⟨_, .replica hengine hnamed haction hdata hread⟩
      | ok p => exact .inr (hbegins (.replica haction hdata hread))
  | startInstance => exact .inr (hbegins (.start haction))
  | stopInstance => exact .inr (hbegins (.stop haction))
  | deleteInstance => exact .inr (hbegins (.remove haction))
  | unknown tag => exact .inl ⟨_, .unknown hengine hnamed haction⟩

theorem objection_of_unnamed (h : r.target.id = "") : ∃ e, Objection r e := by
  by_cases hengine : r.envelope.orchestrator = "docker"
  · exact ⟨_, .unnamed hengine h⟩
  · exact ⟨_, .engine hengine⟩

theorem process_eq_error_iff : (x.process r).run = .done (.error e) ↔ Objection r e := by
  constructor
  · intro hrun
    rcases objection_or_begins x r with ⟨f, hf⟩ | ⟨⟨hengine, hnamed⟩, c, hc⟩
    · rw [hf.process] at hrun
      cases hrun
      exact hf
    · obtain ⟨next, hnext⟩ := hc.process hengine hnamed
      rw [hnext] at hrun
      cases hrun
  · exact Objection.process

/-- What a call names: the container to be created by its name, one that is there by its
identifier. -/
def subject : Container.Call → String
  | .create spec => spec.name
  | .start id | .stop id _ | .remove id _ | .inspect id => id
  | .ping => ""

/-- The call names what the payload names if there is a payload, and else the instance. -/
theorem Begins.subject (h : Begins x r c) : Executor.subject c = (newName? r).getD r.target.id := by
  obtain ⟨p, hp, next, hnext⟩ := h.payload
  rw [newName?, hp]
  cases p <;> cases hnext <;> rfl

/-- An unknown action has a kind of its own. -/
theorem Objection.kind (h : Objection r e) :
    e.kind = .invalidArgument ∨ (∃ tag, r.action = .unknown tag) ∧ e.kind = .unknownAction := by
  cases h with
  | unknown _ _ h => exact .inr ⟨⟨_, h⟩, rfl⟩
  | engine | unnamed | missing | controller | replica => exact .inl rfl

/-- What a request comes to that something is wrong with, and what it begins with otherwise. -/
structure Screened (x : Executor) (r : Request) : Prop where
  refused : ∀ e, (x.process r).run = .done (.error e) ↔ Objection r e
  kind : ∀ e, Objection r e →
    e.kind = .invalidArgument ∨ (∃ tag, r.action = .unknown tag) ∧ e.kind = .unknownAction
  begun : (¬ ∃ e, Objection r e) → ∃ c next, Begins x r c ∧
    Executor.subject c = (newName? r).getD r.target.id ∧
    (x.process r).run = .ask (I := interface) (.inl c) next

theorem screened (x : Executor) (r : Request) : x.Screened r where
  refused := fun _ => process_eq_error_iff
  kind := fun _ => Objection.kind
  begun := by
    intro hnone
    rcases objection_or_begins x r with hsome | ⟨⟨hengine, hnamed⟩, c, hc⟩
    · exact absurd hsome hnone
    · obtain ⟨next, hnext⟩ := hc.process hengine hnamed
      exact ⟨c, next, hc, hc.subject, hnext⟩

/-- A request that everything is wrong with is meant for another kind of engine first of all. -/
example : Objection ⟨.unknown "fly", .blank, .empty "podman"⟩ (.wrongOrchestrator "podman") :=
  .engine (by decide)

end HostAgent.Executor
