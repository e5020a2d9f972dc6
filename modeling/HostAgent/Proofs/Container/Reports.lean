import HostAgent.Proofs.Container.Orders

namespace HostAgent.Executor

/-!
# What is reported of an instance

An instance that was created, started or stopped is reported as its container was found by the
inspection that follows the action. The engine is asked nothing after that. A report does not say
that the action had its effect: the process may have ended, or not ended, by the time of the
inspection, and then the report says so.
-/

variable {x : Executor} {r : Request} {role : Role} {l : List (Exchange interface)} {id op : String}
variable {i : Instance}

/-- A call on the engine without a result, after which the container is inspected. -/
theorem path_call_inspect_iff {t : Task Container.interface (Except Container.Error Unit)}
    {y : Except Container.Error Unit → Exchange interface}
    (hcall : ∀ {l b}, Task.Path (call op id t).run l (.done b) ↔
      ∃ a, l = [y a] ∧ b = a.mapError (.runtime op id)) :
    Task.Path (call op id t >>= fun _ => x.inspect id role).run l (.done (.ok i)) ↔
      ∃ s, l = [y (.ok ()), engineExchange (.inspect id) (.ok s)] ∧ i = x.described role s := by
  refine Task.path_bind_run_iff.trans ?_
  simp only [hcall, path_inspect_iff]
  constructor
  · rintro (⟨e, -, hok⟩ | ⟨l₁, l₂, u, rfl, ⟨_ | _, rfl, hu⟩, ⟨_ | s, rfl, hs⟩⟩)
    · cases hok
    · cases hu
    · cases hu
    · cases hs
    · cases hs
      exact ⟨s, rfl, rfl⟩
  · rintro ⟨s, rfl, rfl⟩
    exact .inr ⟨[_], [_], (), rfl, ⟨.ok (), rfl, rfl⟩, ⟨.ok s, rfl, rfl⟩⟩

theorem path_start_ok_iff :
    Task.Path (x.start id role).run l (.done (.ok i)) ↔
      ∃ s, l = [engineExchange (.start id) (.ok ()), engineExchange (.inspect id) (.ok s)] ∧
        i = x.described role s :=
  path_call_inspect_iff path_engine_iff

theorem path_stop_ok_iff :
    Task.Path (x.stop id role).run l (.done (.ok i)) ↔
      ∃ s, l = [engineExchange (.stop id x.budgets.stop) (.ok ()),
        engineExchange (.inspect id) (.ok s)] ∧ i = x.described role s :=
  path_call_inspect_iff path_engine_iff

/-- What the requests that report an instance ask, and what they report. -/
inductive Reports (x : Executor) (r : Request) : List (Exchange interface) → Instance → Prop
  | started (haction : r.payload = .ok .startInstance) (s : Container.Status) :
      Reports x r [engineExchange (.start r.target.id) (.ok ()),
        engineExchange (.inspect r.target.id) (.ok s)] (x.described r.target.role s)
  | stopped (haction : r.payload = .ok .stopInstance) (s : Container.Status) :
      Reports x r [engineExchange (.stop r.target.id x.budgets.stop) (.ok ()),
        engineExchange (.inspect r.target.id) (.ok s)] (x.described r.target.role s)
  | replica {p : ReplicaPayload} (haction : r.payload = .ok (.createReplica p)) (id : String)
      (s : Container.Status) :
      Reports x r [engineExchange (.create (replicaSpec p)) (.ok id),
        engineExchange (.start id) (.ok ()), engineExchange (.inspect id) (.ok s)]
        (x.described .replica s)
  | controller {p : ControllerPayload} (haction : r.payload = .ok (.createController p))
      (id : String) (s : Container.Status) :
      Reports x r [engineExchange (.create (controllerSpec p)) (.ok id),
        engineExchange (.start id) (.ok ()), engineExchange (.inspect id) (.ok s),
        waitExchange (x.serverWait (x.described .controller s)) (.ok ()),
        waitExchange (x.deviceWait p.volumeName) (.ok ())]
        { x.described .controller s with address := serverAddress s.address }

theorem launches_ok_iff {spec : Container.Spec} :
    Launches x spec role l (.ok i) ↔
      ∃ id s, l = [engineExchange (.create spec) (.ok id), engineExchange (.start id) (.ok ()),
        engineExchange (.inspect id) (.ok s)] ∧ i = x.described role s := by
  constructor
  · intro h
    cases h with
    | @launched id l i h =>
      cases h with
      | started s => exact ⟨id, s, rfl, rfl⟩
  · rintro ⟨id, s, rfl, rfl⟩
    exact .launched (.started s)

theorem course_ok_iff {p : Payload} (hp : r.payload = .ok p) (hspec : (creationSpec? p).isSome) :
    Course x p l (.ok i) ↔ Reports x r l i := by
  constructor
  · intro h
    cases h with
    | replica h =>
      obtain ⟨id, s, rfl, rfl⟩ := launches_ok_iff.mp h
      exact .replica hp id s
    | awaited h h' =>
      obtain ⟨id, s, rfl, rfl⟩ := launches_ok_iff.mp h
      cases h' with
      | ready => exact .controller hp id s
  · intro h
    cases h with
    | started haction s | stopped haction s =>
      cases hp.symm.trans haction
      cases hspec
    | replica haction id s =>
      cases hp.symm.trans haction
      exact .replica (launches_ok_iff.mpr ⟨id, s, rfl, rfl⟩)
    | controller haction id s =>
      cases hp.symm.trans haction
      exact .awaited (launches_ok_iff.mpr ⟨id, s, rfl, rfl⟩) .ready

theorem path_handle_ok_iff {p : Payload} (hp : r.payload = .ok p) (hr : p ≠ .deleteInstance) :
    Task.Path (x.handle r p).run l (.done (.ok i)) ↔ Reports x r l i := by
  cases p with
  | createController p =>
    exact path_createController_iff.trans (course_ok_iff hp rfl)
  | createReplica p =>
    exact path_createReplica_iff.trans (course_ok_iff hp rfl)
  | startInstance =>
    refine path_start_ok_iff.trans ⟨?_, fun h => ?_⟩
    · rintro ⟨s, rfl, rfl⟩
      exact .started hp s
    · cases h with
      | started _ s => exact ⟨s, rfl, rfl⟩
      | stopped haction _ | replica haction _ _ | controller haction _ _ =>
        cases hp.symm.trans haction
  | stopInstance =>
    refine path_stop_ok_iff.trans ⟨?_, fun h => ?_⟩
    · rintro ⟨s, rfl, rfl⟩
      exact .stopped hp s
    · cases h with
      | stopped _ s => exact ⟨s, rfl, rfl⟩
      | started haction _ | replica haction _ _ | controller haction _ _ =>
        cases hp.symm.trans haction
  | deleteInstance => exact absurd rfl hr

theorem Reports.payload_eq_ok (h : Reports x r l i) : ∃ p, r.payload = .ok p := by
  cases h with
  | started haction _ | stopped haction _ | replica haction _ _ | controller haction _ _ =>
    exact ⟨_, haction⟩

theorem action_of_payload (hp : r.payload = .ok .deleteInstance) : r.action = .deleteInstance := by
  cases haction : r.action with
  | deleteInstance => rfl
  | createController =>
    rcases Creates.payload_cases (.inl haction) with ⟨e, h⟩ | ⟨p, h⟩ | ⟨p, h⟩ <;>
      cases hp.symm.trans h
  | createReplica =>
    rcases Creates.payload_cases (.inr haction) with ⟨e, h⟩ | ⟨p, h⟩ | ⟨p, h⟩ <;>
      cases hp.symm.trans h
  | startInstance | stopInstance | unknown tag =>
    simp only [Request.payload, haction] at hp
    cases hp

theorem admitted_of_path_ok (h : Task.Path (x.process r).run l (.done (.ok i))) :
    (r.envelope.orchestrator = orchestrator ∧ r.target.id ≠ "") ∧ ∃ p, r.payload = .ok p := by
  rcases objection_or_begins x r with ⟨e, he⟩ | ⟨hadmitted, c, hc⟩
  · rw [he.process] at h
    cases (Task.path_done_iff.mp h).2
  · obtain ⟨p, hp, -⟩ := hc.payload
    exact ⟨hadmitted, p, hp⟩

/-- A request that is not for a removal succeeds only with a report. -/
theorem path_process_ok_iff (hr : r.action ≠ .deleteInstance) :
    Task.Path (x.process r).run l (.done (.ok i)) ↔
      (r.envelope.orchestrator = orchestrator ∧ r.target.id ≠ "") ∧ Reports x r l i := by
  have hhandle : ∀ p, r.envelope.orchestrator = orchestrator ∧ r.target.id ≠ "" →
      r.payload = .ok p →
      (Task.Path (x.process r).run l (.done (.ok i)) ↔ Reports x r l i) := by
    rintro p ⟨hengine, hnamed⟩ hp
    rw [process_eq_handle hengine hnamed hp]
    refine path_handle_ok_iff hp ?_
    rintro rfl
    exact hr (action_of_payload hp)
  constructor
  · intro h
    obtain ⟨hadmitted, p, hp⟩ := admitted_of_path_ok h
    exact ⟨hadmitted, (hhandle p hadmitted hp).mp h⟩
  · rintro ⟨hadmitted, h⟩
    obtain ⟨p, hp⟩ := h.payload_eq_ok
    exact (hhandle p hadmitted hp).mpr h

theorem forall_mem_waits {w w' : Probe.Wait} {y : Exchange interface}
    (hy : y ∈ [waitExchange w (.ok ()), waitExchange w' (.ok ())]) :
    ∃ w, y = waitExchange w (.ok ()) := by
  rcases List.mem_pair.mp hy with rfl | rfl
  · exact ⟨w, rfl⟩
  · exact ⟨w', rfl⟩

theorem Reports.inspected (h : Reports x r l i) :
    ∃ l₀ id s l₁, l = l₀ ++ engineExchange (.inspect id) (.ok s) :: l₁ ∧
      (∀ y ∈ l₁, ∃ w, y = waitExchange w (.ok ())) ∧ i.id = s.id ∧ i.name = plainName s.name ∧
      i.hostId = x.host.uuid ∧ i.running = s.running := by
  cases h with
  | started _ s | stopped _ s =>
    exact ⟨[_], _, s, [], rfl, List.forall_mem_nil _, rfl, rfl, rfl, rfl⟩
  | replica _ id s => exact ⟨[_, _], id, s, [], rfl, List.forall_mem_nil _, rfl, rfl, rfl, rfl⟩
  | controller _ id s =>
    exact ⟨[_, _], id, s, [_, _], rfl, fun _ => forall_mem_waits, rfl, rfl, rfl, rfl⟩

/-- A request that creates, starts or stops an instance succeeds if the engine took the calls for
it, inspected its container after them and, for a controller, the waits ended well. What is
reported then is what that inspection found, which is the last thing that the engine was asked, be
the container running or not. -/
theorem reported_as_inspected (x : Executor) (hr : r.action ≠ .deleteInstance)
    (l : List (Exchange interface)) (i : Instance) :
    (Task.Path (x.process r).run l (.done (.ok i)) ↔
      (r.envelope.orchestrator = orchestrator ∧ r.target.id ≠ "") ∧ Reports x r l i) ∧
    (Reports x r l i →
      ∃ l₀ id s l₁, l = l₀ ++ engineExchange (.inspect id) (.ok s) :: l₁ ∧
        (∀ y ∈ l₁, ∃ w, y = waitExchange w (.ok ())) ∧ i.id = s.id ∧ i.name = plainName s.name ∧
        i.hostId = x.host.uuid ∧ i.running = s.running) :=
  ⟨path_process_ok_iff hr, Reports.inspected⟩

def startC1 : Request := ⟨.startInstance, ⟨"c1", .replica, "h1"⟩, .empty orchestrator⟩

def stopC1 : Request := ⟨.stopInstance, ⟨"c1", .replica, "h1"⟩, .empty orchestrator⟩

/-- A container that runs when it is inspected is reported to run. -/
theorem reported_as_inspected_c1 :
    startC1.action ≠ .deleteInstance ∧
    Task.Path (hostH1.process startC1).run
      [engineExchange (.start "c1") (.ok ()),
        engineExchange (.inspect "c1") (.ok ⟨"c1", "/r1", "172.17.0.2", true⟩)]
      (.done (.ok ⟨"c1", .replica, "r1", "h1", "172.17.0.2", true⟩)) := by
  refine ⟨by decide, ?_⟩
  have hreports := Reports.started (x := hostH1) (r := startC1) rfl
    ⟨"c1", "/r1", "172.17.0.2", true⟩
  exact (reported_as_inspected hostH1 (by decide) _ _).1.mpr ⟨⟨rfl, by decide⟩, hreports⟩

/-- A process that ends before the inspection, or does not end in time: the start of a container,
its stop and the creation of a controller succeed all the same. -/
theorem reported_without_effect :
    (∃ l i, Task.Path (hostH1.process startC1).run l (.done (.ok i)) ∧ i.running = false) ∧
    (∃ l i, Task.Path (hostH1.process stopC1).run l (.done (.ok i)) ∧ i.running = true) ∧
    ∃ l i, Task.Path (hostH1.process controllerE1).run l (.done (.ok i)) ∧ i.running = false := by
  let s : Container.Status := ⟨"c1", "/r1", "", false⟩
  have hstart := Reports.started (x := hostH1) (r := startC1) rfl s
  have hstop := Reports.stopped (x := hostH1) (r := stopC1) rfl { s with running := true }
  have hcreate := Reports.controller (x := hostH1) (r := controllerE1)
    (p := controllerPayloadE1) rfl "c1" s
  refine ⟨⟨_, _, (path_process_ok_iff ?_).mpr ⟨⟨rfl, ?_⟩, hstart⟩, rfl⟩,
    ⟨_, _, (path_process_ok_iff ?_).mpr ⟨⟨rfl, ?_⟩, hstop⟩, rfl⟩,
    ⟨_, _, (path_process_ok_iff ?_).mpr ⟨⟨rfl, ?_⟩, hcreate⟩, rfl⟩⟩ <;> decide

end HostAgent.Executor
