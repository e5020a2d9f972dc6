import HostAgent.Proofs.Container.Course
import HostAgent.Proofs.Container.Objections
import HostAgent.Proofs.Record.Normal

namespace HostAgent

/-!
# What a request creates

A request to create an instance asks the engine once for a container, the one that its payload says,
and for nothing if it lacks the name.
-/

namespace Executor

variable {x : Executor} {r : Request} {p : Payload} {spec : Container.Spec} {role : Role}
variable {id : String} {y : List (Exchange interface)} {result : Except AgentError Instance}
variable {w : Task interface (Except AgentError Instance)}

/-- The container that a call creates. -/
def spec? (y : Exchange interface) : Option Container.Spec :=
  match y.1 with
  | .inl (.create spec) => some spec
  | _ => none

theorem Starts.specs (h : Starts x id role y result) : y.filterMap spec? = [] := by
  cases h <;> rfl

theorem Launches.specs (h : Launches x spec role y result) : y.filterMap spec? = [spec] := by
  cases h with
  | uncreated e => rfl
  | failed h removal =>
    rw [List.filterMap_append]
    exact congrArg (fun l => spec :: l ++ []) h.specs
  | launched h => exact congrArg (List.cons spec) h.specs

theorem Awaits.specs {volume : String} {i : Instance} (h : Awaits x volume i y result) :
    y.filterMap spec? = [] := by
  cases h <;> rfl

theorem Course.specs (h : Course x p y result) :
    y.filterMap spec? = (creationSpec? p).toList := by
  cases h with
  | replica h => exact h.specs
  | unlaunched h => exact h.specs
  | awaited h h' =>
    rw [List.filterMap_append, h.specs, h'.specs]
    rfl

/-- A request that creates a container, unless it lacks the name. -/
structure Orders (r : Request) (spec : Container.Spec) : Prop where
  creates : Creates r
  engine : r.envelope.orchestrator = "docker"
  payload : ∃ p, r.payload = .ok p ∧ creationSpec? p = some spec

theorem Orders.admitted (h : Orders r spec) (hname : r.target.id ≠ "") :
    ∃ p, Admitted r p ∧ creationSpec? p = some spec := by
  obtain ⟨p, hp, hspec⟩ := h.payload
  exact ⟨p, ⟨h.creates, h.engine, hname, hp⟩, hspec⟩

theorem Orders.specs (h : Orders r spec) (hname : r.target.id ≠ "")
    (hy : Task.Path (x.process r).run y (.done result)) : y.filterMap spec? = [spec] := by
  obtain ⟨p, hadmitted, hspec⟩ := h.admitted hname
  rw [((path_process_iff hadmitted).mp hy).specs, hspec]
  rfl

theorem nonempty_answer (c : interface.Call) : Nonempty (interface.Answer c) := by
  match c with
  | .inl (.create _) => exact ⟨(.ok "" : Except Container.Error String)⟩
  | .inl (.inspect _) => exact ⟨(.ok default : Except Container.Error Container.Status)⟩
  | .inl .ping | .inl (.start _) | .inl (.stop _ _) | .inl (.remove _ _) =>
    exact ⟨(.ok () : Except Container.Error Unit)⟩
  | .inr _ => exact ⟨(.ok () : Except ProbeError Unit)⟩

instance : ∀ c : interface.Call, Nonempty (interface.Answer c) := nonempty_answer

/-- However far it came, a request has created its container once at most, and without a name it
has asked for nothing. -/
theorem Orders.specs_of_path (h : Orders r spec) (hy : Task.Path (x.process r).run y w) :
    y = [] ∨ r.target.id ≠ "" ∧ (y.filterMap spec? = [] ∨ y.filterMap spec? = [spec]) := by
  by_cases hname : r.target.id = ""
  · obtain ⟨e, he⟩ := objection_of_unnamed hname
    rw [he.process] at hy
    exact .inl (Task.path_done_iff.mp hy).1
  · obtain ⟨y', result, hy'⟩ := Task.exists_path_done w
    have hall := h.specs hname (hy.append hy')
    rw [List.filterMap_append] at hall
    refine .inr ⟨hname, ?_⟩
    cases hmade : y.filterMap spec? with
    | nil => exact .inl rfl
    | cons a l =>
      rw [hmade, List.cons_append] at hall
      obtain ⟨rfl, hrest⟩ := List.cons.inj hall
      rw [(List.append_eq_nil_iff.mp hrest).1]
      exact .inr rfl

theorem orders_replica (target : Target) (p : ReplicaPayload) :
    Orders ⟨.createReplica, target, .withPayload "docker" p⟩ (replicaSpec p) where
  creates := .inr rfl
  engine := rfl
  payload := by
    refine ⟨.createReplica p, ?_, rfl⟩
    rw [Request.payload, Request.attached_withPayload, Except.map]

theorem orders_controller (target : Target) (p : ControllerPayload) :
    Orders ⟨.createController, target, .withPayload "docker" p⟩ (controllerSpec p) where
  creates := .inl rfl
  engine := rfl
  payload := by
    refine ⟨.createController p, ?_, rfl⟩
    rw [Request.payload, Request.attached_withPayload, Except.map]

end Executor

end HostAgent
