import HostAgent.Proofs.Cluster.Passage
import HostAgent.Proofs.Container.Orders

namespace HostAgent

/-!
# Instances of a volume

An instance is created from the record of its volume as the store had it when the operation began.
However the request for it is routed, one container is created at most, and it is the one that the
record, the name and the replicas say.
-/

/-! ## The containers of a volume -/

namespace Volume

def replicaContainer (v : Volume) (name : String) : Container.Spec where
  name := name
  image := v.image
  command := ["launch", "replica", "--listen", "0.0.0.0:9502", "--size", toString v.size.toNat,
    "/volume"]
  binds := []
  volumes := ["/volume"]
  privileged := true
  ports := [9502, 9503, 9504]

def controllerContainer (v : Volume) (name : String) (replicas : SortedMap Replica) :
    Container.Spec where
  name := name
  image := v.image
  command := ["launch", "controller", "--listen", "0.0.0.0:9501", "--frontend", "tgt"] ++
    replicas.entries.flatMap (fun e => ["--replica", "tcp://" ++ e.2.inst.address ++ ":9502"]) ++
    [v.name]
  binds := ["/dev:/host/dev", "/proc:/host/proc"]
  volumes := []
  privileged := true
  ports := []

end Volume

namespace Agent

variable {a : Agent} {v : Volume} {name : String} {replicas : SortedMap Replica}

theorem replicaAddress_eq (r : Replica) :
    replicaAddress r = "tcp://" ++ r.inst.address ++ ":9502" := by
  have hport : toString ":" ++ toString Executor.replicaPort = ":9502" := by decide
  change "tcp://" ++ r.inst.address ++ toString ":" ++ toString Executor.replicaPort = _
  rw [String.append_assoc, hport]

theorem controllerSpec_eq :
    Executor.controllerSpec ⟨name, v.name, v.image, replicas.values.map replicaAddress⟩ =
      v.controllerContainer name replicas := by
  have haddresses : (replicas.values.map replicaAddress).flatMap (fun s => ["--replica", s]) =
      replicas.entries.flatMap fun e => ["--replica", "tcp://" ++ e.2.inst.address ++ ":9502"] := by
    simp only [SortedMap.values, List.flatMap_map, replicaAddress_eq]
  simp only [Executor.controllerSpec, haddresses]
  rfl

theorem orders_replicaRequest (id : String) :
    Executor.Orders ((replicaRequest v name).placedAt id) (v.replicaContainer name) :=
  Executor.orders_replica ⟨name, .replica, id⟩ ⟨name, v.name, v.size, v.image⟩

theorem isPlain_replicaRequest (id : String) :
    ((replicaRequest v name).placedAt id).IsPlain := by
  have haction : Action.ofTag Action.createReplica.tag = .createReplica := rfl
  exact Request.isPlain_withPayload haction nofun (Request.depth_replicaPayload _)

theorem orders_controllerRequest :
    Executor.Orders (a.controllerRequest v name replicas)
      (v.controllerContainer name replicas) := by
  rw [← controllerSpec_eq]
  exact Executor.orders_controller ⟨name, .controller, a.host.uuid⟩ _

variable {α : Type}

/-- The creation of an instance of a volume. -/
def creating (a : Agent) (what volume : String) (request : Volume → Request) (f : Instance → α) :
    Op α :=
  within what do
    let v ← a.schedulableVolume volume
    let i ← a.schedule (request v)
    return f i

/-- What becomes of a creation once the record of the volume was read. -/
def opened (a : Agent) (what volume : String) (request : Volume → Request) (f : Instance → α)
    (b : Except Store.Error (Option Store.Entry)) : Task interface (Result α) :=
  match Store.Space.found (α := Volume) b with
  | .error e => .done (.error (.context what (.store "get" (a.space.volumeKey volume) e)))
  | .ok none => .done (.error (.context what (.notFound "volume" volume)))
  | .ok (some v) =>
    if v.size = 0 then
      .done (.error (.context what
        (.invalidArgument s!"invalid volume size 0 for volume {volume}")))
    else (a.schedule (request v)).run.bind fun r => .done ((r.map f).mapError (.context what))

theorem creating_run (what volume : String) (request : Volume → Request) (f : Instance → α) :
    (a.creating what volume request f).run =
      .ask (.store (.get (a.space.volumeKey volume))) (a.opened what volume request f) := by
  have hread : (a.getVolume volume).run = .ask (.store (.get (a.space.volumeKey volume))) fun b =>
      .done ((Store.Space.found b).mapError (.store "get" (a.space.volumeKey volume))) := by
    simp only [getVolume, ask, stored, Store.Space.getVolume, Store.Space.fetch_map_run]
    rfl
  rw [creating, within, schedulableVolume]
  simp only [ExceptT.run_bind, hread]
  refine congrArg (Task.ask (I := interface) (.store (.get _))) (funext fun b => ?_)
  change Task.bind (Task.bind (Task.bind (.done ((Store.Space.found b).mapError _)) _) _) _ = _
  unfold opened
  cases Store.Space.found (α := Volume) b with
  | error e => rfl
  | ok o =>
    cases o with
    | none => rfl
    | some v =>
      change Task.bind (Task.bind (ExceptT.run (if v.size = 0 then _ else _)) _) _ = _
      simp only
      split
      · rfl
      · change Task.bind (Task.bind (a.schedule (request v)).run _) _ = _
        rw [Task.bind_assoc]
        congr 1
        funext r
        cases r <;> rfl

end Agent

/-! ## Creations in a cluster -/

variable {n : Nat} {α : Type}

theorem Demand.nonempty_answer (c : Demand n) : Nonempty c.Answer := by
  match c with
  | .store (.get _) => exact ⟨(.ok none : Except Store.Error (Option Store.Entry))⟩
  | .store (.list _) => exact ⟨(.ok [] : Except Store.Error (List (String × Store.Entry)))⟩
  | .store (.set _ _) | .store (.create _ _) | .store (.compareAndSet _ _ _) =>
    exact ⟨(.ok 0 : Except Store.Error Nat)⟩
  | .store (.delete _) => exact ⟨(.ok false : Except Store.Error Bool)⟩
  | .host _ c => exact Executor.nonempty_answer c
  | .note _ _ => exact ⟨()⟩

instance : ∀ c : (Demand.interface n).Call, Nonempty ((Demand.interface n).Answer c) :=
  Demand.nonempty_answer

/-- The host and the container of a call that creates one. -/
def creation? (y : Exchange (Demand.interface n)) : Option (Fin n × Container.Spec) :=
  match y.1 with
  | .host j (.inl (.create spec)) => some (j, spec)
  | _ => none

def creations (d : List (Exchange (Demand.interface n))) : List (Fin n × Container.Spec) :=
  d.filterMap creation?

theorem creations_filter_onHost (d : List (Exchange (Demand.interface n))) :
    creations (d.filter OnHost) = creations d := by
  rw [creations, List.filterMap_filter, creations]
  congr 1
  funext ⟨c, b⟩
  cases c <;> rfl

theorem creations_atHost (j : Fin n) (y : List (Exchange Executor.interface)) :
    creations (y.map (atHost j)) = (y.filterMap Executor.spec?).map (Prod.mk j) := by
  rw [creations, List.filterMap_map, List.map_filterMap]
  congr 1
  funext ⟨c, b⟩
  match c with
  | .inl (.create _) => rfl
  | .inl .ping | .inl (.start _) | .inl (.stop _ _) | .inl (.remove _ _) | .inl (.inspect _) => rfl
  | .inr _ => rfl

/-- What was asked began with the reading of a key, to which this was answered. -/
def Opens (key : String) (b : Except Store.Error (Option Store.Entry))
    (d : List (Exchange (Demand.interface n))) : Prop :=
  d.head? = some ⟨.store (.get key), b⟩

/-- The store had the record of a volume under a key when the operation began. -/
def Finds (key : String) (v : Volume) (d : List (Exchange (Demand.interface n))) : Prop :=
  ∃ e, Opens key (.ok (some e)) d ∧ Store.Space.decode e.value = .ok v

/-- An operation reads a volume, and creates a container for it at one of some places. -/
structure Translates (t : Task (Demand.interface n) (Result α)) (key volume name what : String)
    (place : Fin n → Prop) (spec : Volume → Container.Spec) : Prop where
  opens : ∀ d r, Task.Path t d (.done r) → ∃ b, Opens key b d
  /-- Hosts are asked for nothing before a volume that has a size was read, and for nothing at all
  without a name. -/
  cause : ∀ d u, Task.Path t d u → (∃ y ∈ d, OnHost y = true) →
    name ≠ "" ∧ ∃ v, Finds key v d ∧ v.size ≠ 0
  once : ∀ d u v, Task.Path t d u → Finds key v d →
    creations d = [] ∨ ∃ j, place j ∧ creations d = [(j, spec v)]
  unread : ∀ d r b e, Task.Path t d (.done r) → Opens key b d →
    Store.Space.found (α := Volume) b = .error e → r = .error (.context what (.store "get" key e))
  missing : ∀ d r, Task.Path t d (.done r) → Opens key (.ok none) d →
    r = .error (.context what (.notFound "volume" volume))
  sizeless : ∀ d r v, Task.Path t d (.done r) → Finds key v d → v.size = 0 →
    r = .error (.context what (.invalidArgument s!"invalid volume size 0 for volume {volume}"))

namespace Layout

variable {l : Layout n} {i : Fin n} {what volume name : String} {request : Volume → Request}
variable {f : Instance → α}

theorem asks_creating : l.asks i (fun a => a.creating what volume request f) =
    .ask (.store (.get ((l.agent i).space.volumeKey volume))) fun b =>
      ((l.agent i).opened what volume request f b).interpret (l.carryOut i) := by
  rw [asks, Agent.creating_run]
  rfl

theorem exists_path_creating (l : Layout n) (i : Fin n) (what volume : String)
    (request : Volume → Request) (f : Instance → α)
    (b : Except Store.Error (Option Store.Entry)) :
    ∃ d result, Task.Path (l.asks i fun a => a.creating what volume request f)
      (⟨.store (.get ((l.agent i).space.volumeKey volume)), b⟩ :: d) (.done result) := by
  rw [asks_creating]
  exact Task.exists_path_ask (I := Demand.interface n) (.store (.get _)) _ b

/-- What passes a request for a container creates it once at most, at the place of the request, and
asks hosts for nothing if the request lacks the name. -/
theorem Passes.creations_of_path {t : Task (Demand.interface n) α} {place : Fin n → Prop}
    {spec : Container.Spec}
    (h : l.Passes (fun j r => place j ∧ r.target.id = name ∧ Executor.Orders r spec) t)
    {d : List (Exchange (Demand.interface n))} {u : Task (Demand.interface n) α}
    (hd : Task.Path t d u) : d.filter OnHost = [] ∨
      name ≠ "" ∧ (creations d = [] ∨ ∃ j, place j ∧ creations d = [(j, spec)]) := by
  rcases h d u hd with hnone | ⟨j, r, y, w, ⟨hj, rfl, horders⟩, hy, hfilter⟩
  · exact .inl hnone
  · rcases horders.specs_of_path hy with rfl | ⟨hname, hspecs⟩
    · exact .inl hfilter
    · rw [← creations_filter_onHost, hfilter, creations_atHost]
      refine .inr ⟨hname, hspecs.imp ?_ ?_⟩
      · intro hspecs
        rw [hspecs]
        rfl
      · intro hspecs
        rw [hspecs]
        exact ⟨j, hj, rfl⟩

/-- Where a volume that has a size was read, a creation goes on with the request for it. -/
theorem opened_of_found {b : Except Store.Error (Option Store.Entry)} {v : Volume}
    (hfound : Store.Space.found b = .ok (some v)) (hsize : v.size ≠ 0) :
    ((l.agent i).opened what volume request f b).interpret (l.carryOut i) =
      (l.asks i fun a => a.schedule (request v)).bind fun r =>
        .done ((r.map f).mapError (.context what)) := by
  rw [Agent.opened, hfound]
  simp only [if_neg hsize, Task.interpret_bind]
  rfl

theorem path_creating {d : List (Exchange (Demand.interface n))}
    {u : Task (Demand.interface n) (Result α)}
    (hd : Task.Path (l.asks i fun a => a.creating what volume request f) d u) :
    d = [] ∨ ∃ b d', d = ⟨.store (.get ((l.agent i).space.volumeKey volume)), b⟩ :: d' ∧
      Task.Path (((l.agent i).opened what volume request f b).interpret (l.carryOut i)) d' u := by
  rw [asks_creating] at hd
  exact (Task.path_ask_iff.mp hd).imp_left And.left

theorem opened_cases (b : Except Store.Error (Option Store.Entry)) :
    (∃ e, ((l.agent i).opened what volume request f b).interpret (l.carryOut i) =
        .done (.error e)) ∨
      ∃ v : Volume, Store.Space.found b = .ok (some v) ∧ v.size ≠ 0 := by
  unfold Agent.opened
  split
  · exact .inl ⟨_, rfl⟩
  · exact .inl ⟨_, rfl⟩
  next v hfound =>
    by_cases hsize : v.size = 0
    · rw [if_pos hsize]
      exact .inl ⟨_, rfl⟩
    · exact .inr ⟨v, hfound, hsize⟩

/-- What follows on the reading of a volume, whatever was read. -/
theorem path_of_opens {b : Except Store.Error (Option Store.Entry)}
    {d : List (Exchange (Demand.interface n))} {u : Task (Demand.interface n) (Result α)}
    (hd : Task.Path (l.asks i fun a => a.creating what volume request f) d u)
    (hopens : Opens ((l.agent i).space.volumeKey volume) b d) :
    ∃ d', d = ⟨.store (.get ((l.agent i).space.volumeKey volume)), b⟩ :: d' ∧
      Task.Path (((l.agent i).opened what volume request f b).interpret (l.carryOut i)) d' u := by
  rcases path_creating hd with rfl | ⟨b', d', rfl, hd'⟩
  · cases hopens
  · cases hopens
    exact ⟨d', rfl, hd'⟩

theorem opened_of_sizeless {b : Except Store.Error (Option Store.Entry)} {v : Volume}
    (hfound : Store.Space.found b = .ok (some v)) (hsize : v.size = 0) :
    ((l.agent i).opened what volume request f b).interpret (l.carryOut i) =
      .done (.error (.context what
        (.invalidArgument s!"invalid volume size 0 for volume {volume}"))) := by
  rw [Agent.opened, hfound]
  simp only [if_pos hsize]
  rfl

theorem translates_creating {place : Fin n → Prop} {spec : Volume → Container.Spec}
    (h : ∀ v, l.Passes (fun j r => place j ∧ r.target.id = name ∧ Executor.Orders r (spec v))
      (l.asks i fun a => a.schedule (request v))) :
    Translates (l.asks i fun a => a.creating what volume request f)
      ((l.agent i).space.volumeKey volume) volume name what place spec where
  opens := by
    intro d r hd
    rw [asks_creating] at hd
    obtain ⟨b, d', rfl, -⟩ := Task.path_ask_done_iff.mp hd
    exact ⟨b, rfl⟩
  cause := by
    rintro d u hd ⟨y, hy, hhost⟩
    rcases path_creating hd with rfl | ⟨b, d', rfl, hd'⟩
    · cases hy
    have hlater : y ∈ d' := by
      rcases List.mem_cons.mp hy with rfl | hlater
      · cases hhost
      · exact hlater
    rcases opened_cases b with ⟨e, hdone⟩ | ⟨v, hfound, hsize⟩
    · rw [hdone] at hd'
      rw [(Task.path_done_iff.mp hd').1] at hlater
      cases hlater
    · rw [opened_of_found hfound hsize] at hd'
      obtain ⟨e, rfl, hdecode⟩ := Store.Space.found_eq_some_iff.mp hfound
      rcases ((h v).map _).creations_of_path hd' with hnone | ⟨hname, -⟩
      · have hmem := List.mem_filter.mpr ⟨hlater, hhost⟩
        rw [hnone] at hmem
        cases hmem
      · exact ⟨hname, v, ⟨e, rfl, hdecode⟩, hsize⟩
  once := by
    rintro d u v hd ⟨e, hopens, hdecode⟩
    obtain ⟨d', rfl, hd'⟩ := path_of_opens hd hopens
    change creations d' = [] ∨ ∃ j, place j ∧ creations d' = _
    have hfound := Store.Space.found_eq_some_iff.mpr ⟨e, rfl, hdecode⟩
    by_cases hsize : v.size = 0
    · rw [opened_of_sizeless hfound hsize] at hd'
      rw [(Task.path_done_iff.mp hd').1]
      exact .inl rfl
    · rw [opened_of_found hfound hsize] at hd'
      rcases ((h v).map _).creations_of_path hd' with hnone | ⟨-, hcreations⟩
      · rw [← creations_filter_onHost, hnone]
        exact .inl rfl
      · exact hcreations
  unread := by
    intro d r b e hd hopens hfound
    obtain ⟨d', rfl, hd'⟩ := path_of_opens hd hopens
    rw [Agent.opened, hfound] at hd'
    exact Task.done.inj (Task.path_done_iff.mp hd').2
  missing := by
    intro d r hd hopens
    obtain ⟨d', rfl, hd'⟩ := path_of_opens hd hopens
    exact Task.done.inj (Task.path_done_iff.mp hd').2
  sizeless := by
    rintro d r v hd ⟨e, hopens, hdecode⟩ hsize
    obtain ⟨d', rfl, hd'⟩ := path_of_opens hd hopens
    rw [opened_of_sizeless (Store.Space.found_eq_some_iff.mpr ⟨e, rfl, hdecode⟩) hsize] at hd'
    exact Task.done.inj (Task.path_done_iff.mp hd').2

/-! ## What was made -/

/-- What comes to its end on a host has created the container of its request. -/
theorem creations_runs {r : Request} {j : Fin n} {spec : Container.Spec}
    {d : List (Exchange (Demand.interface n))} {result : Result Instance}
    (h : Executor.Orders r spec) (hname : r.target.id ≠ "")
    (hd : Task.Path (l.runs j r) d (.done result)) : creations d = [(j, spec)] := by
  obtain ⟨y, w, rfl, hw, hy⟩ := path_onHost hd
  obtain ⟨a, rfl⟩ : ∃ a, w = .done a := by
    cases w with
    | done a => exact ⟨a, rfl⟩
    | ask c next => cases hw
  rw [creations_atHost, h.specs hname hy]
  rfl

theorem path_creating_found {d : List (Exchange (Demand.interface n))} {result : Result α}
    {v : Volume}
    (hd : Task.Path (l.asks i fun a => a.creating what volume request f) d (.done result))
    (hfinds : Finds ((l.agent i).space.volumeKey volume) v d) (hsize : v.size ≠ 0) :
    ∃ y d' result', d = y :: d' ∧ creation? y = none ∧
      Task.Path (l.asks i fun a => a.schedule (request v)) d' (.done result') := by
  obtain ⟨e, hopens, hdecode⟩ := hfinds
  obtain ⟨d', rfl, hd'⟩ := path_of_opens hd hopens
  rw [opened_of_found (Store.Space.found_eq_some_iff.mpr ⟨e, rfl, hdecode⟩) hsize] at hd'
  obtain ⟨u, hu, hd'⟩ := hd'.of_map
  obtain ⟨result', rfl, -⟩ := Task.bind_done_eq_done hu.symm
  exact ⟨_, d', result', rfl, rfl, hd'⟩

/-- The hosts that were listed are such that one of an identifier is chosen. -/
def Chooses (l : Layout n) (id : String) (entries : List (String × Store.Entry)) : Prop :=
  ∃ (h : Host) (rest : List Host), Store.Space.fetchedAll (.ok entries) = .ok (h :: rest) ∧
    ((h :: rest).get (l.choose rest.length)).uuid = id

theorem placed_here {r : Request} {entries : List (String × Store.Entry)}
    (h : l.Chooses (l.agent i).host.uuid entries) :
    ((l.agent i).scheduler.placed r (.ok entries)).interpret (l.route i) =
      l.runs i (r.placedAt (l.agent i).host.uuid) := by
  obtain ⟨first, rest, hfetched, hchosen⟩ := h
  rw [Scheduler.placed, hfetched]
  change (((l.agent i).scheduler.dispatch (r.placedAt _)).run).interpret (l.route i) = _
  rw [hchosen, Scheduler.dispatch_here rfl]
  change (l.route i (.run _)).bind .done = _
  rw [Task.bind_done, route_run]

theorem creations_placed_here {r : Request} {spec : Container.Spec}
    {entries : List (String × Store.Entry)} {d : List (Exchange (Demand.interface n))}
    {result : Result Instance} (hempty : r.target.hostId = "")
    (h : l.Chooses (l.agent i).host.uuid entries)
    (horders : Executor.Orders (r.placedAt (l.agent i).host.uuid) spec) (hname : r.target.id ≠ "")
    (hd : Task.Path (l.asks i fun a => a.schedule r) d (.done result))
    (hlist : d.head? = some ⟨.store (.list (l.agent i).space.hostsDir), .ok entries⟩) :
    creations d = [(i, spec)] := by
  rw [asks_schedule, Scheduler.schedule_placed hempty] at hd
  obtain ⟨a, d', rfl, hd'⟩ := Task.path_ask_done_iff.mp hd
  cases hlist
  change Task.Path (((l.agent i).scheduler.placed r (.ok entries)).interpret (l.route i)) _ _ at hd'
  rw [placed_here h] at hd'
  change creations d' = _
  exact creations_runs horders hname hd'

theorem asks_createController (v : Volume) (name : String) (replicas : SortedMap Replica)
    (huuid : (l.agent i).host.uuid ≠ "") :
    l.asks i (fun a => a.schedule ((l.agent i).controllerRequest v name replicas)) =
      l.runs i ((l.agent i).controllerRequest v name replicas) :=
  asks_schedule_here rfl huuid

/-- Where a volume that has a size is found and the request for it names no host, a creation goes on
with the list of hosts. -/
theorem exists_path_creating_placed (l : Layout n) (i : Fin n) (what volume : String)
    (request : Volume → Request) (f : Instance → α) {v : Volume}
    {b : Except Store.Error (Option Store.Entry)} (hfound : Store.Space.found b = .ok (some v))
    (hsize : v.size ≠ 0) (hempty : (request v).target.hostId = "")
    (a : Except Store.Error (List (String × Store.Entry))) :
    ∃ d result, Task.Path (l.asks i fun a => a.creating what volume request f)
      (⟨.store (.get ((l.agent i).space.volumeKey volume)), b⟩ ::
        ⟨.store (.list (l.agent i).space.hostsDir), a⟩ :: d) (.done result) := by
  obtain ⟨d, result, hd⟩ : ∃ d result, Task.Path (I := Demand.interface n)
      (((l.agent i).opened what volume request f b).interpret (l.carryOut i))
      (⟨.store (.list (l.agent i).space.hostsDir), a⟩ :: d) (.done result) := by
    rw [opened_of_found hfound hsize, asks_schedule, Scheduler.schedule_placed hempty]
    exact Task.exists_path_ask (I := Demand.interface n) (.store (.list _)) _ a
  rw [asks_creating]
  exact ⟨d, result, .cons _ hd⟩

/-- Every creation begins with the reading of its volume. A replica is created only for a volume
that the store had with a size when the operation began, and only if it has a name: one container at
most in all the cluster, as the volume says, and it is created where the agent chooses its own host.
A controller is created just so, always by the agent that is asked for it, as the volume and the
replicas say. -/
theorem instances_translate_volume (l : Layout n) {i : Fin n} (huuid : (l.agent i).host.uuid ≠ "")
    (volume name : String) (replicas : SortedMap Replica) :
    Translates (l.asks i fun a => a.createReplica volume name)
        ((l.agent i).space.volumeKey volume) volume name s!"fail to create replica for {volume}"
        (fun _ => True) (fun v => v.replicaContainer name) ∧
      Translates (l.asks i fun a => a.createController volume name replicas)
        ((l.agent i).space.volumeKey volume) volume name s!"fail to create controller for {volume}"
        (fun j => j = i) (fun v => v.controllerContainer name replicas) ∧
      ∀ d v, Finds ((l.agent i).space.volumeKey volume) v d → v.size ≠ 0 → name ≠ "" →
        (∀ result, Task.Path (l.asks i fun a => a.createController volume name replicas) d
          (.done result) → creations d = [(i, v.controllerContainer name replicas)]) ∧
        ∀ result entries, Task.Path (l.asks i fun a => a.createReplica volume name) d
          (.done result) → l.Chooses (l.agent i).host.uuid entries →
            d[1]? = some ⟨.store (.list (l.agent i).space.hostsDir), .ok entries⟩ →
              creations d = [(i, v.replicaContainer name)] := by
  refine ⟨translates_creating fun v => ?_, translates_creating fun v => ?_, ?_⟩
  · exact passes_schedule rfl Agent.isPlain_replicaRequest
      (fun j id => ⟨trivial, rfl, Agent.orders_replicaRequest id⟩) i
  · rw [asks_createController v name replicas huuid]
    exact passes_runs ⟨rfl, rfl, Agent.orders_controllerRequest⟩
  intro d v hfinds hsize hname
  constructor
  · intro result hd
    obtain ⟨y, d', result', rfl, hy, hd'⟩ := path_creating_found hd hfinds hsize
    rw [asks_createController v name replicas huuid] at hd'
    rw [creations, List.filterMap_cons_none hy]
    exact creations_runs Agent.orders_controllerRequest hname hd'
  · intro result entries hd hchooses hlist
    obtain ⟨y, d', result', rfl, hy, hd'⟩ := path_creating_found hd hfinds hsize
    rw [creations, List.filterMap_cons_none hy]
    refine creations_placed_here rfl hchooses (Agent.orders_replicaRequest _) hname hd' ?_
    rw [List.head?_eq_getElem?]
    exact hlist

end Layout

namespace Cluster

def replicaAt (address : String) : Replica := ⟨⟨"c1", .replica, "r1", "h1", address, true⟩, none⟩

def volumeV1 : Volume := ⟨"v1", 1024, "longhorn-engine", .empty⟩

def entryV1 : Store.Entry := ⟨Record.text volumeV1, 1⟩

theorem found_entryV1 : Store.Space.found (.ok (some entryV1)) = .ok (some volumeV1) :=
  Store.Space.found_eq_some_iff.mpr ⟨entryV1, rfl, Store.Space.decode_text volumeV1⟩

theorem finds_v1 (d : List (Exchange (Demand.interface 2))) :
    Finds "/longhorn/volumes/v1" volumeV1
      (⟨.store (.get "/longhorn/volumes/v1"), .ok (some entryV1)⟩ :: d) :=
  ⟨entryV1, rfl, Store.Space.decode_text volumeV1⟩

def entryEast : String × Store.Entry := ("/longhorn/hosts/east", ⟨Record.text east, 2⟩)

theorem chooses_east : pair.layout.Chooses "east" [entryEast] := by
  refine ⟨east, [], ?_, rfl⟩
  simp only [Store.Space.fetchedAll, List.mapM_cons, List.mapM_nil, entryEast,
    Store.Space.decode_text]
  rfl

def replicasAB : SortedMap Replica :=
  .ofList [("b", replicaAt "10.0.0.6"), ("a", replicaAt "10.0.0.5")]

/-- A controller that east is asked for is created there, with the replicas in the order of their
keys, and so is a replica where the hosts that it finds are itself alone. -/
theorem instances_translate_volume_pair :
    (∃ d result, Task.Path (pair.layout.asks 1 fun a => a.createController "v1" "e1" replicasAB) d
        (.done result) ∧
      creations d = [(1, ⟨"e1", "longhorn-engine", ["launch", "controller", "--listen",
        "0.0.0.0:9501", "--frontend", "tgt", "--replica", "tcp://10.0.0.5:9502", "--replica",
        "tcp://10.0.0.6:9502", "v1"], ["/dev:/host/dev", "/proc:/host/proc"], [], true, []⟩)]) ∧
    ∃ d result, Task.Path (pair.layout.asks 1 fun a => a.createReplica "v1" "r1") d
        (.done result) ∧
      creations d = [(1, ⟨"r1", "longhorn-engine", ["launch", "replica", "--listen",
        "0.0.0.0:9502", "--size", "1024", "/volume"], [], ["/volume"], true,
        [9502, 9503, 9504]⟩)] := by
  constructor
  · obtain ⟨d, result, hd⟩ := Layout.exists_path_creating pair.layout 1
      "fail to create controller for v1" "v1"
      (fun v => (pair.layout.agent 1).controllerRequest v "e1" replicasAB) Controller.mk
      (.ok (some entryV1))
    obtain ⟨-, -, hmade⟩ :=
      Layout.instances_translate_volume pair.layout (i := 1) (by decide) "v1" "e1" replicasAB
    have hcreations := (hmade _ volumeV1 (finds_v1 d) (by decide) (by decide)).1 result hd
    exact ⟨_, result, hd, hcreations.trans (by decide +kernel)⟩
  · obtain ⟨d, result, hd⟩ := Layout.exists_path_creating_placed pair.layout 1
      "fail to create replica for v1" "v1" (fun v => Agent.replicaRequest v "r1")
      Replica.ofInstance found_entryV1 (by decide) rfl (.ok [entryEast])
    obtain ⟨-, -, hmade⟩ :=
      Layout.instances_translate_volume pair.layout (i := 1) (by decide) "v1" "r1" .empty
    have hcreations := (hmade _ volumeV1 (finds_v1 _) (by decide) (by decide)).2 result _ hd
      chooses_east rfl
    exact ⟨_, result, hd, hcreations.trans (by decide +kernel)⟩

end Cluster

end HostAgent
