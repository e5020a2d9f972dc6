import HostAgent.Proofs.Container.Launch

namespace HostAgent.Executor

/-!
# The course of a creation

What the creation of an instance asks of the engine and of the waits, in order, and what it comes
to, for everything that it can be answered. The container that was created is the only one that is
named. It is removed once if it does not start or cannot be inspected, and then the first error
stands; it is left alone if it is only not ready.
-/

variable {x : Executor} {spec : Container.Spec} {role : Role} {r : Request} {p : Payload}
variable {l : List (Exchange interface)} {result : Except AgentError Instance} {id : String}

/-- A call on the engine and its answer. -/
def engineExchange (c : Container.Call) (a : c.Answer) : Exchange interface := ⟨.inl c, a⟩

/-- A wait and how it ended. -/
def waitExchange (w : Probe.Wait) (a : Except ProbeError Unit) : Exchange interface := ⟨.inr w, a⟩

/-! ## Single calls -/

theorem path_engine_iff {α : Type} {c : Container.Call} {f : c.Answer → α} {b : α} :
    Task.Path (.ask (I := interface) (.inl c) fun a => .done (f a)) l (.done b) ↔
      ∃ a, l = [engineExchange c a] ∧ b = f a := by
  refine Task.path_ask_done_iff.trans ?_
  constructor
  · rintro ⟨a, l', rfl, h⟩
    obtain ⟨rfl, hdone⟩ := Task.path_done_iff.mp h
    exact ⟨a, rfl, by simpa using hdone⟩
  · rintro ⟨a, rfl, rfl⟩
    exact ⟨a, [], rfl, .nil _⟩

theorem path_wait_iff {w : Probe.Wait} {what : String} {b : Except AgentError Unit} :
    Task.Path (wait w what).run l (.done b) ↔
      ∃ a, l = [waitExchange w a] ∧ b = a.mapError fun e => .context what (.readiness e) := by
  refine Task.path_ask_done_iff.trans ?_
  constructor
  · rintro ⟨a, l', rfl, h⟩
    obtain ⟨rfl, hdone⟩ := Task.path_done_iff.mp h
    exact ⟨a, rfl, by simpa using hdone⟩
  · rintro ⟨a, rfl, rfl⟩
    exact ⟨a, [], rfl, .nil _⟩

/-- What is known of an instance of this host from the status of its container. -/
def described (x : Executor) (role : Role) (s : Container.Status) : Instance :=
  ⟨s.id, role, plainName s.name, x.host.uuid, s.address, s.running⟩

theorem path_inspect_iff :
    Task.Path (x.inspect id role).run l (.done result) ↔
      ∃ a : Except Container.Error Container.Status, l = [engineExchange (.inspect id) a] ∧
        result = (a.map (x.described role)).mapError (.runtime "inspect container" id) := by
  have hinspect : (x.inspect id role).run = .ask (I := interface) (.inl (.inspect id))
      fun a : Except Container.Error Container.Status =>
        .done ((a.map (x.described role)).mapError (.runtime "inspect container" id)) := by
    refine congrArg (Task.ask (I := interface) _) (funext fun a => ?_)
    match a with
    | .ok s => rfl
    | .error e => rfl
  rw [hinspect]
  exact path_engine_iff

theorem path_remove_iff :
    Task.Path (remove id role).run l (.done result) ↔
      ∃ a : Except Container.Error Unit, l = [engineExchange (.remove id true) a] ∧
        result = (a.map fun _ => .removed id role).mapError (.runtime "remove container" id) := by
  have hremove : (remove id role).run = .ask (I := interface) (.inl (.remove id true))
      fun a : Except Container.Error Unit =>
        .done ((a.map fun _ => .removed id role).mapError (.runtime "remove container" id)) := by
    refine congrArg (Task.ask (I := interface) _) (funext fun a => ?_)
    match a with
    | .ok () => rfl
    | .error e => rfl
  rw [hremove]
  exact path_engine_iff

/-! ## Launches -/

/-- What a start asks and comes to. -/
inductive Starts (x : Executor) (id : String) (role : Role) :
    List (Exchange interface) → Except AgentError Instance → Prop
  | unstarted (e : Container.Error) :
      Starts x id role [engineExchange (.start id) (.error e)]
        (.error (.runtime "start container" id e))
  | uninspected (e : Container.Error) :
      Starts x id role
        [engineExchange (.start id) (.ok ()), engineExchange (.inspect id) (.error e)]
        (.error (.runtime "inspect container" id e))
  | started (s : Container.Status) :
      Starts x id role
        [engineExchange (.start id) (.ok ()), engineExchange (.inspect id) (.ok s)]
        (.ok (x.described role s))

theorem path_start_iff :
    Task.Path (x.start id role).run l (.done result) ↔ Starts x id role l result := by
  have hcall : ∀ {l b}, Task.Path (call "start container" id
      (Task.call (I := Container.interface) (.start id))).run l (.done b) ↔
        ∃ a : Except Container.Error Unit, l = [engineExchange (.start id) a] ∧
          b = a.mapError (.runtime "start container" id) :=
    path_engine_iff
  refine Task.path_bind_run_iff.trans ?_
  simp only [hcall, path_inspect_iff]
  constructor
  · rintro (⟨e, ⟨_ | _, rfl, he⟩, rfl⟩ | ⟨l₁, l₂, u, rfl, ⟨_ | _, rfl, hu⟩, ⟨_ | s, rfl, rfl⟩⟩)
    · cases he
      exact .unstarted _
    · cases he
    · cases hu
    · cases hu
    · exact .uninspected _
    · exact .started s
  · intro h
    cases h with
    | unstarted e => exact .inl ⟨_, ⟨.error e, rfl, rfl⟩, rfl⟩
    | uninspected e => exact .inr ⟨_, _, (), rfl, ⟨.ok (), rfl, rfl⟩, ⟨.error e, rfl, rfl⟩⟩
    | started s => exact .inr ⟨_, _, (), rfl, ⟨.ok (), rfl, rfl⟩, ⟨.ok s, rfl, rfl⟩⟩

/-- What a launch asks and comes to. -/
inductive Launches (x : Executor) (spec : Container.Spec) (role : Role) :
    List (Exchange interface) → Except AgentError Instance → Prop
  | uncreated (e : Container.Error) :
      Launches x spec role [engineExchange (.create spec) (.error e)]
        (.error (.runtime "create container" spec.name e))
  | failed {id : String} {l : List (Exchange interface)} {e : AgentError}
      (h : Starts x id role l (.error e)) (removal : Except Container.Error Unit) :
      Launches x spec role
        (engineExchange (.create spec) (.ok id) :: l ++ [engineExchange (.remove id true) removal])
        (.error e)
  | launched {id : String} {l : List (Exchange interface)} {i : Instance}
      (h : Starts x id role l (.ok i)) :
      Launches x spec role (engineExchange (.create spec) (.ok id) :: l) (.ok i)

theorem path_launch_iff :
    Task.Path (x.launch spec role).run l (.done result) ↔ Launches x spec role l result := by
  have hcall : ∀ {l b}, Task.Path (call "create container" spec.name
      (Task.call (I := Container.interface) (.create spec))).run l (.done b) ↔
        ∃ a : Except Container.Error String, l = [engineExchange (.create spec) a] ∧
          b = a.mapError (.runtime "create container" spec.name) :=
    path_engine_iff
  refine Task.path_bind_run_iff.trans ?_
  simp only [hcall, Task.path_tryCatch_iff, Task.path_lift_bind_iff, Task.path_throw_iff,
    path_start_iff, path_remove_iff]
  constructor
  · rintro (⟨e, ⟨_ | _, rfl, he⟩, rfl⟩ | ⟨l₁, l₂, id, rfl, ⟨_ | _, rfl, hid⟩, h⟩)
    · cases he
      exact .uncreated _
    · cases he
    · cases hid
    · cases hid
      rcases h with ⟨i, hstart, rfl⟩ |
        ⟨l₃, l₄, e, rfl, hstart, l₅, l₆, b, rfl, ⟨a, rfl, -⟩, rfl, rfl⟩
      · exact .launched hstart
      · exact .failed hstart a
  · intro h
    cases h with
    | uncreated e => exact .inl ⟨_, ⟨.error e, rfl, rfl⟩, rfl⟩
    | @failed id l e h removal =>
      exact .inr ⟨[_], _, id, rfl, ⟨.ok id, rfl, rfl⟩,
        .inr ⟨l, _, e, rfl, h, [_], [], _, rfl, ⟨removal, rfl, rfl⟩, rfl, rfl⟩⟩
    | @launched id l i h =>
      exact .inr ⟨[_], l, id, rfl, ⟨.ok id, rfl, rfl⟩, .inl ⟨i, h, rfl⟩⟩

/-! ## Creations -/

/-- Where the server of a controller listens, at the address of its container. -/
def serverAddress (address : String) : String := "http://" ++ address ++ ":9501"

def serverWait (x : Executor) (i : Instance) : Probe.Wait :=
  .http (serverAddress i.address ++ "/v1") x.budgets.api

/-- The device of a volume has the name of the volume below the root of devices. -/
def deviceWait (x : Executor) (volume : String) : Probe.Wait :=
  .path (FilePath.join x.budgets.deviceRoot volume) x.budgets.device

/-- What an error of a wait says. -/
def unready : Probe.Wait → ProbeError → AgentError
  | .http url _, e => .context ("fail to wait for api endpoint at " ++ url) (.readiness e)
  | .path path _, e => .context ("fail to wait for device " ++ path) (.readiness e)

@[simp] theorem kind_unready (w : Probe.Wait) (e : ProbeError) :
    (unready w e).kind = (AgentError.readiness e).kind := by
  cases w <;> rfl

/-- What the waits for a controller that was launched ask and come to. -/
inductive Awaits (x : Executor) (volume : String) (i : Instance) :
    List (Exchange interface) → Except AgentError Instance → Prop
  | unserved (e : ProbeError) :
      Awaits x volume i [waitExchange (x.serverWait i) (.error e)]
        (.error (unready (x.serverWait i) e))
  | deviceless (e : ProbeError) :
      Awaits x volume i
        [waitExchange (x.serverWait i) (.ok ()), waitExchange (x.deviceWait volume) (.error e)]
        (.error (unready (x.deviceWait volume) e))
  | ready :
      Awaits x volume i
        [waitExchange (x.serverWait i) (.ok ()), waitExchange (x.deviceWait volume) (.ok ())]
        (.ok { i with address := serverAddress i.address })

/-- What becomes of a controller that was launched. -/
def await (x : Executor) (volume : String) (i : Instance) : Op Instance := do
  wait (x.serverWait i) ("fail to wait for api endpoint at " ++ (x.serverWait i).target)
  wait (x.deviceWait volume) ("fail to wait for device " ++ (x.deviceWait volume).target)
  return { i with address := serverAddress i.address }

theorem serverAddress_eq (address : String) :
    s!"http://{address}:{controllerPort}" = serverAddress address := by
  have hport : toString ":" ++ toString controllerPort = ":9501" := by decide
  change "http://" ++ address ++ toString ":" ++ toString controllerPort = _
  rw [String.append_assoc, hport, serverAddress]

theorem createController_eq (x : Executor) (p : ControllerPayload) :
    x.createController p =
      x.launch (controllerSpec p) .controller >>= fun i => x.await p.volumeName i := by
  simp only [createController, serverAddress_eq]
  rfl

theorem path_await_iff {volume : String} {i : Instance} :
    Task.Path (x.await volume i).run l (.done result) ↔ Awaits x volume i l result := by
  simp only [await, Task.path_bind_run_iff, path_wait_iff, Task.path_pure_iff]
  constructor
  · rintro (⟨e, ⟨e | _, rfl, he⟩, rfl⟩ | ⟨l₁, l₂, _, rfl, ⟨_ | _, rfl, hok⟩, h⟩)
    · cases he
      exact .unserved e
    · cases he
    · cases hok
    · rcases h with ⟨e, ⟨e | _, rfl, he⟩, rfl⟩ | ⟨l₁, l₂, _, rfl, ⟨_ | _, rfl, hok⟩, rfl, rfl⟩
      · cases he
        exact .deviceless e
      · cases he
      · cases hok
      · exact .ready
  · intro h
    cases h with
    | unserved e => exact .inl ⟨_, ⟨.error e, rfl, rfl⟩, rfl⟩
    | deviceless e =>
      exact .inr ⟨[_], _, (), rfl, ⟨.ok (), rfl, rfl⟩, .inl ⟨_, ⟨.error e, rfl, rfl⟩, rfl⟩⟩
    | ready =>
      exact .inr ⟨[_], _, (), rfl, ⟨.ok (), rfl, rfl⟩,
        .inr ⟨[_], [], (), rfl, ⟨.ok (), rfl, rfl⟩, rfl, rfl⟩⟩

/-- What the creation of an instance asks and comes to. -/
inductive Course (x : Executor) :
    Payload → List (Exchange interface) → Except AgentError Instance → Prop
  | replica {p : ReplicaPayload} {l : List (Exchange interface)}
      {result : Except AgentError Instance} (h : Launches x (replicaSpec p) .replica l result) :
      Course x (.createReplica p) l result
  | unlaunched {p : ControllerPayload} {l : List (Exchange interface)} {e : AgentError}
      (h : Launches x (controllerSpec p) .controller l (.error e)) :
      Course x (.createController p) l (.error e)
  | awaited {p : ControllerPayload} {l l' : List (Exchange interface)} {i : Instance}
      {result : Except AgentError Instance}
      (h : Launches x (controllerSpec p) .controller l (.ok i))
      (h' : Awaits x p.volumeName i l' result) :
      Course x (.createController p) (l ++ l') result

theorem path_createReplica_iff {p : ReplicaPayload} :
    Task.Path (x.createReplica p).run l (.done result) ↔
      Course x (.createReplica p) l result := by
  refine path_launch_iff.trans ⟨.replica, ?_⟩
  rintro (h | _ | _)
  exact h

theorem path_createController_iff {p : ControllerPayload} :
    Task.Path (x.createController p).run l (.done result) ↔
      Course x (.createController p) l result := by
  rw [createController_eq]
  simp only [Task.path_bind_run_iff, path_launch_iff, path_await_iff]
  constructor
  · rintro (⟨e, h, rfl⟩ | ⟨l₁, l₂, i, rfl, h, h'⟩)
    · exact .unlaunched h
    · exact .awaited h h'
  · intro h
    cases h with
    | unlaunched h => exact .inl ⟨_, h, rfl⟩
    | awaited h h' => exact .inr ⟨_, _, _, rfl, h, h'⟩

/-- A request to create an instance that nothing can be said against, with its payload. -/
structure Admitted (r : Request) (p : Payload) : Prop where
  creates : Creates r
  engine : r.envelope.orchestrator = "docker"
  named : r.target.id ≠ ""
  payload : r.payload = .ok p

theorem path_process_iff (h : Admitted r p) :
    Task.Path (x.process r).run l (.done result) ↔ Course x p l result := by
  have hengine : r.envelope.orchestrator = orchestrator := h.engine
  have hp := h.payload
  rcases h.creates.payload_cases with ⟨e, hr⟩ | ⟨q, hr⟩ | ⟨q, hr⟩
  · rw [hr] at hp
    cases hp
  · rw [hr] at hp
    cases hp
    have hprocess : x.process r = x.createController q := by
      simp [process, hengine, h.named, hr]
    rw [hprocess]
    exact path_createController_iff
  · rw [hr] at hp
    cases hp
    have hprocess : x.process r = x.createReplica q := by
      simp [process, hengine, h.named, hr]
    rw [hprocess]
    exact path_createReplica_iff

/-! ## The container of a creation -/

/-- The container that a call names. -/
def named? (y : Exchange interface) : Option String :=
  match y.1 with
  | .inl c => c.id?
  | .inr _ => none

/-- Whether a call stops or removes a container. -/
def TakesAway (y : Exchange interface) : Prop :=
  match y.1 with
  | .inl (.stop _ _) | .inl (.remove _ _) => True
  | _ => False

/-- Whether a wait ended in an error. -/
def waitError? (y : Exchange interface) : Option ProbeError :=
  match y with
  | ⟨.inr _, (.error e : Except ProbeError Unit)⟩ => some e
  | _ => none

variable {y : Exchange interface} {volume : String} {i : Instance} {e : ProbeError}

theorem Starts.calls (h : Starts x id role l result) (hy : y ∈ l) :
    named? y = some id ∧ ¬ TakesAway y := by
  cases h with
  | unstarted e =>
    simp only [List.mem_singleton] at hy
    subst hy
    exact ⟨rfl, fun h => h⟩
  | uninspected e =>
    simp only [List.mem_cons, List.not_mem_nil, or_false] at hy
    rcases hy with rfl | rfl <;> exact ⟨rfl, fun h => h⟩
  | started s =>
    simp only [List.mem_cons, List.not_mem_nil, or_false] at hy
    rcases hy with rfl | rfl <;> exact ⟨rfl, fun h => h⟩

theorem engine_of_named (h : named? y = some id) : ∃ c, y.1 = .inl c := by
  obtain ⟨c | w, a⟩ := y
  · exact ⟨c, rfl⟩
  · cases h

/-- A launch asks the engine only. -/
theorem Launches.asks_engine (h : Launches x spec role l result) (hy : y ∈ l) :
    ∃ c, y.1 = .inl c := by
  cases h with
  | uncreated e =>
    rw [List.mem_singleton.mp hy]
    exact ⟨_, rfl⟩
  | failed h removal =>
    rcases List.mem_append.mp hy with hy | hy
    · rcases List.mem_cons.mp hy with rfl | hy
      · exact ⟨_, rfl⟩
      · exact engine_of_named (h.calls hy).1
    · rw [List.mem_singleton.mp hy]
      exact ⟨_, rfl⟩
  | launched h =>
    rcases List.mem_cons.mp hy with rfl | hy
    · exact ⟨_, rfl⟩
    · exact engine_of_named (h.calls hy).1

theorem Launches.waitError?_eq_none (h : Launches x spec role l result) (hy : y ∈ l) :
    waitError? y = none := by
  obtain ⟨c, hc⟩ := h.asks_engine hy
  obtain ⟨call, a⟩ := y
  cases hc
  rfl

theorem Launches.not_takesAway (h : Launches x spec role l (.ok i)) (hy : y ∈ l) :
    ¬ TakesAway y := by
  cases h with
  | launched h =>
    rcases List.mem_cons.mp hy with rfl | hy
    · exact fun h => h
    · exact (h.calls hy).2

/-- A launch names no container but the one that it was told to have created. -/
theorem Launches.created (h : Launches x spec role l result) (hy : y ∈ l)
    (hnamed : named? y = some id) :
    l.head? = some (engineExchange (.create spec) (.ok id)) := by
  cases h with
  | uncreated e =>
    rw [List.mem_singleton.mp hy] at hnamed
    cases hnamed
  | failed h removal =>
    rcases List.mem_append.mp hy with hy | hy
    · rcases List.mem_cons.mp hy with rfl | hy
      · cases hnamed
      · rw [(h.calls hy).1] at hnamed
        cases hnamed
        rfl
    · rw [List.mem_singleton.mp hy] at hnamed
      cases hnamed
      rfl
  | launched h =>
    rcases List.mem_cons.mp hy with rfl | hy
    · cases hnamed
    · rw [(h.calls hy).1] at hnamed
      cases hnamed
      rfl

theorem Awaits.calls (h : Awaits x volume i l result) (hy : y ∈ l) :
    named? y = none ∧ ¬ TakesAway y := by
  cases h with
  | unserved e =>
    rw [List.mem_singleton.mp hy]
    exact ⟨rfl, fun h => h⟩
  | deviceless e =>
    simp only [List.mem_cons, List.not_mem_nil, or_false] at hy
    rcases hy with rfl | rfl <;> exact ⟨rfl, fun h => h⟩
  | ready =>
    simp only [List.mem_cons, List.not_mem_nil, or_false] at hy
    rcases hy with rfl | rfl <;> exact ⟨rfl, fun h => h⟩

/-- A wait that fails gives its kind to the error. -/
theorem Awaits.kind (h : Awaits x volume i l result) (hy : y ∈ l) (he : waitError? y = some e) :
    ∃ f, result = .error f ∧ f.kind = (AgentError.readiness e).kind := by
  cases h with
  | unserved e =>
    rw [List.mem_singleton.mp hy] at he
    cases he
    exact ⟨_, rfl, kind_unready _ _⟩
  | deviceless e =>
    simp only [List.mem_cons, List.not_mem_nil, or_false] at hy
    rcases hy with rfl | rfl <;> cases he
    exact ⟨_, rfl, kind_unready _ _⟩
  | ready =>
    simp only [List.mem_cons, List.not_mem_nil, or_false] at hy
    rcases hy with rfl | rfl <;> cases he

/-- The container of which a creation asks first. -/
def creationSpec? : Payload → Option Container.Spec
  | .createController p => some (controllerSpec p)
  | .createReplica p => some (replicaSpec p)
  | _ => none

theorem Course.created (h : Course x p l result) (hy : y ∈ l) (hnamed : named? y = some id) :
    ∃ spec, creationSpec? p = some spec ∧
      l.head? = some (engineExchange (.create spec) (.ok id)) := by
  cases h with
  | replica h => exact ⟨_, rfl, h.created hy hnamed⟩
  | unlaunched h => exact ⟨_, rfl, h.created hy hnamed⟩
  | awaited h h' =>
    rcases List.mem_append.mp hy with hy | hy
    · refine ⟨_, rfl, ?_⟩
      rw [List.head?_append, h.created hy hnamed]
      rfl
    · rw [(h'.calls hy).1] at hnamed
      cases hnamed

theorem Course.of_waitError (h : Course x p l result) (hy : y ∈ l) (he : waitError? y = some e) :
    (∃ f, result = .error f ∧ f.kind = (AgentError.readiness e).kind) ∧
      ∀ z ∈ l, ¬ TakesAway z := by
  cases h with
  | replica h =>
    rw [h.waitError?_eq_none hy] at he
    cases he
  | unlaunched h =>
    rw [h.waitError?_eq_none hy] at he
    cases he
  | awaited h h' =>
    rcases List.mem_append.mp hy with hy | hy
    · rw [h.waitError?_eq_none hy] at he
      cases he
    · refine ⟨h'.kind hy he, fun z hz => ?_⟩
      rcases List.mem_append.mp hz with hz | hz
      · exact h.not_takesAway hz
      · exact (h'.calls hz).2

/-- An admitted request to create an instance runs one of the courses of its payload, and each of
them for some answers. In all of them the only container that is named is the one that the engine
answered to the creation, and if a wait fails, the error is of its kind and nothing is stopped or
removed. -/
theorem creation_follows_course (x : Executor) (h : Admitted r p) (l : List (Exchange interface))
    (result : Except AgentError Instance) :
    (Task.Path (x.process r).run l (.done result) ↔ Course x p l result) ∧
      (Course x p l result →
        (∀ y ∈ l, ∀ id, named? y = some id → ∃ spec, creationSpec? p = some spec ∧
          l.head? = some (engineExchange (.create spec) (.ok id))) ∧
        ∀ y ∈ l, ∀ e, waitError? y = some e →
          (∃ f, result = .error f ∧ f.kind = (AgentError.readiness e).kind) ∧
            ∀ z ∈ l, ¬ TakesAway z) :=
  ⟨path_process_iff h, fun hcourse =>
    ⟨fun _ hy _ hid => hcourse.created hy hid, fun _ hy _ he => hcourse.of_waitError hy he⟩⟩

def hostH1 : Executor := ⟨⟨"h1", "", ""⟩, .standard⟩

def controllerPayloadE1 : ControllerPayload := ⟨"e1", "v1", "image", ["tcp://10.0.0.5:9502"]⟩

def controllerE1 : Request where
  action := .createController
  target := ⟨"e1", .controller, "h1"⟩
  envelope := .withPayload orchestrator controllerPayloadE1

theorem admitted_controllerE1 : Admitted controllerE1 (.createController controllerPayloadE1) :=
  ⟨.inl rfl, rfl, by decide, rfl⟩

def containerE1 : Container.Spec where
  name := "e1"
  image := "image"
  command := ["launch", "controller", "--listen", "0.0.0.0:9501", "--frontend", "tgt",
    "--replica", "tcp://10.0.0.5:9502", "v1"]
  binds := ["/dev:/host/dev", "/proc:/host/proc"]
  volumes := []
  privileged := true
  ports := []

def statusE1 : Container.Status := ⟨"c1", "/e1", "172.17.0.2", true⟩

def serverE1 : Probe.Wait := .http "http://172.17.0.2:9501/v1" (.seconds 30)

def deviceV1 : Probe.Wait := .path "/dev/longhorn/v1" (.seconds 30)

def lateV1 : ProbeError := .timeout "/dev/longhorn/v1" (.seconds 30)

/-- The creation of a controller up to the wait for its device, which ends in some way. -/
def controllerCalls (shown : Except ProbeError Unit) : List (Exchange interface) :=
  [engineExchange (.create containerE1) (.ok "c1"), engineExchange (.start "c1") (.ok ()),
    engineExchange (.inspect "c1") (.ok statusE1), waitExchange serverE1 (.ok ()),
    waitExchange deviceV1 shown]

theorem course_controllerCalls {shown : Except ProbeError Unit}
    {result : Except AgentError Instance}
    (h : Awaits hostH1 "v1" (hostH1.described .controller statusE1)
      [waitExchange serverE1 (.ok ()), waitExchange deviceV1 shown] result) :
    Course hostH1 (.createController controllerPayloadE1) (controllerCalls shown) result := by
  have hspec : controllerSpec controllerPayloadE1 = containerE1 := by decide +kernel
  have hstarts : Starts hostH1 "c1" .controller _ _ := .started statusE1
  have hlaunches : Launches hostH1 (controllerSpec controllerPayloadE1) .controller _ _ :=
    .launched hstarts
  have hcourse := Course.awaited hlaunches h
  rw [hspec] at hcourse
  exact hcourse

/-- The server of a controller answers and its device appears, or it does not appear in time, and
then the container that runs is left alone. -/
theorem creation_follows_course_e1 :
    Task.Path (hostH1.process controllerE1).run (controllerCalls (.ok ()))
      (.done (.ok ⟨"c1", .controller, "e1", "h1", "http://172.17.0.2:9501", true⟩)) ∧
    ∃ f, Task.Path (hostH1.process controllerE1).run (controllerCalls (.error lateV1))
        (.done (.error f)) ∧
      f.kind = .readinessTimeout ∧ ∀ z ∈ controllerCalls (.error lateV1), ¬ TakesAway z := by
  have hserver : hostH1.serverWait (hostH1.described .controller statusE1) = serverE1 := by
    decide +kernel
  have hdevice : hostH1.deviceWait "v1" = deviceV1 := by decide +kernel
  have hready : Awaits hostH1 "v1" (hostH1.described .controller statusE1) _ _ := .ready
  rw [hserver, hdevice] at hready
  have hlate : Awaits hostH1 "v1" (hostH1.described .controller statusE1) _ _ :=
    .deviceless lateV1
  rw [hserver, hdevice] at hlate
  obtain ⟨hpath, hclauses⟩ := creation_follows_course hostH1 admitted_controllerE1
    (controllerCalls (.error lateV1)) (.error (unready deviceV1 lateV1))
  have hcourse := course_controllerCalls hlate
  obtain ⟨⟨f, hf, hkind⟩, hkept⟩ :=
    (hclauses hcourse).2 (waitExchange deviceV1 (.error lateV1)) (by simp [controllerCalls]) _ rfl
  cases hf
  refine ⟨?_, _, hpath.mpr hcourse, hkind, hkept⟩
  have hresult : ({ hostH1.described .controller statusE1 with
      address := serverAddress (hostH1.described .controller statusE1).address } : Instance) =
      ⟨"c1", .controller, "e1", "h1", "http://172.17.0.2:9501", true⟩ := by decide +kernel
  rw [← hresult]
  exact (creation_follows_course hostH1 admitted_controllerE1 _ _).1.mpr
    (course_controllerCalls hready)

end HostAgent.Executor
