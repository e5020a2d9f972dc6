import HostAgent.Proofs.Cluster.Schedule
import HostAgent.Proofs.Task.Path
import Mathlib.Tactic.Choose

namespace HostAgent

/-!
# The passage of a request through a cluster

However a request is routed and whatever the cluster answers, it is carried out on one host at most,
as it was made, with the host put in that was chosen for it. All that is asked of hosts on the way
is what this host asks for carrying it out.
-/

variable {n : Nat} {α β : Type}

/-- A call on a part of a host and its answer. -/
def atHost (j : Fin n) (y : Exchange Executor.interface) : Exchange (Demand.interface n) :=
  ⟨.host j y.1, y.2⟩

/-- Whether something is asked of a host. -/
def OnHost (y : Exchange (Demand.interface n)) : Bool :=
  match y.1 with
  | .host _ _ => true
  | .store _ | .note _ _ => false

theorem path_onHost {j : Fin n} {t : Task Executor.interface α}
    {d : List (Exchange (Demand.interface n))} {u : Task (Demand.interface n) α}
    (h : Task.Path (onHost j t) d u) :
    ∃ l w, d = l.map (atHost j) ∧ u = onHost j w ∧ Task.Path t l w := by
  induction t generalizing d with
  | done a =>
    obtain ⟨rfl, rfl⟩ := Task.path_done_iff.mp h
    exact ⟨[], .done a, rfl, rfl, .nil _⟩
  | ask c next ih =>
    rcases Task.path_ask_iff.mp h with ⟨rfl, rfl⟩ | ⟨b, d', rfl, h'⟩
    · exact ⟨[], .ask c next, rfl, rfl, .nil _⟩
    · obtain ⟨l, w, rfl, rfl, hp⟩ := ih b h'
      have hcons : Task.Path (.ask c next) (⟨c, b⟩ :: l) w := .cons _ hp
      exact ⟨⟨c, b⟩ :: l, w, rfl, rfl, hcons⟩

/-- The request with a host put in. -/
def Request.placedAt (r : Request) (hostId : String) : Request :=
  { r with target := { r.target with hostId := hostId } }

namespace Scheduler

variable {p : Scheduler} {r : Request}

/-- What becomes of a request that names no host once the registered hosts were read. -/
def placed (p : Scheduler) (r : Request) (a : Except Store.Error (List (String × Store.Entry))) :
    Task interface (Except AgentError Instance) :=
  match Store.Space.fetchedAll (α := Host) a with
  | .error e => .done (.error (.store "list" "hosts" e))
  | .ok [] => .done (.error (.notFound "host" "for placement"))
  | .ok (h :: rest) =>
    .ask (.pick rest.length) fun i => (p.dispatch (r.placedAt ((h :: rest).get i).uuid)).run

theorem schedule_placed (hempty : r.target.hostId = "") :
    (p.schedule r).run = .ask (.store (.list p.space.hostsDir)) (placed p r) := by
  rw [schedule, if_pos hempty, place, ExceptT.run_bind]
  simp only [ask, Store.Space.listHosts, Store.Space.fetchAll_run]
  refine congrArg (Task.ask (I := interface) (.store (.list _))) (funext fun a => ?_)
  change Task.bind (Task.bind (.done ((Store.Space.fetchedAll a).mapError _)) _) _ = _
  unfold placed
  cases Store.Space.fetchedAll (α := Host) a with
  | error e => rfl
  | ok hosts =>
    cases hosts with
    | nil => rfl
    | cons h rest => rfl

end Scheduler

namespace Layout

variable {l : Layout n} {r : Request} {i j : Fin n} {P : Fin n → Request → Prop}
variable {t : Task (Demand.interface n) α}

/-- A task asks nothing of hosts but what one of them asks for one request. -/
def Passes (l : Layout n) (P : Fin n → Request → Prop) (t : Task (Demand.interface n) α) : Prop :=
  ∀ d u, Task.Path t d u → d.filter OnHost = [] ∨
    ∃ j r y w, P j r ∧ Task.Path ((l.agent j).executor.process r).run y w ∧
      d.filter OnHost = y.map (atHost j)

theorem passes_done (a : α) : l.Passes P (.done a) := by
  intro d u h
  obtain ⟨rfl, -⟩ := Task.path_done_iff.mp h
  exact .inl rfl

/-- A call on something else than a host does not count. -/
theorem passes_ask {c : Demand n} {next : c.Answer → Task (Demand.interface n) α}
    (hc : ∀ a, OnHost ⟨c, a⟩ = false) (h : ∀ a, l.Passes P (next a)) :
    l.Passes P (.ask (I := Demand.interface n) c next) := by
  intro d u hd
  rcases Task.path_ask_iff.mp hd with ⟨rfl, rfl⟩ | ⟨a, d', rfl, hd'⟩
  · exact .inl rfl
  · rw [List.filter_cons_of_neg (by simp [hc a])]
    exact h a d' u hd'

theorem Passes.map (h : l.Passes P t) (f : α → β) : l.Passes P (t.bind fun a => .done (f a)) := by
  intro d u hd
  obtain ⟨u', rfl, hd'⟩ := hd.of_map
  exact h d u' hd'

theorem Passes.bind_done {k : α → Task (Demand.interface n) β} (h : l.Passes P t)
    (hk : ∀ a, ∃ b, k a = .done b) : l.Passes P (t.bind k) := by
  choose g hg using hk
  rw [funext hg]
  exact h.map g

theorem filter_onHost_map_atHost (j : Fin n) (y : List (Exchange Executor.interface)) :
    (y.map (atHost j)).filter OnHost = y.map (atHost j) := by
  rw [List.filter_eq_self]
  intro z hz
  obtain ⟨x, -, rfl⟩ := List.mem_map.mp hz
  rfl

theorem passes_runs (h : P j r) : l.Passes P (l.runs j r) := by
  intro d u hd
  obtain ⟨y, w, rfl, rfl, hp⟩ := path_onHost hd
  exact .inr ⟨j, r, y, w, h, hp, filter_onHost_map_atHost j y⟩

theorem passes_runsWithin (h : P j r) (limit : Time.Span) :
    l.Passes P (l.runsWithin limit j r) := by
  intro d u hd
  obtain ⟨y, w, rfl, rfl, hp⟩ := path_onHost hd
  obtain ⟨w', hp'⟩ := hp.of_within
  exact .inr ⟨j, r, y, w', h, hp', filter_onHost_map_atHost j y⟩

/-! ## From host to host -/

/-- What arrives of a request is turned down, or it is the request. -/
theorem respond_arrival (x : Executor) (now : Time.Timestamp) (hr : r.IsPlain) (url : Http.Url) :
    (∃ reply, Api.respond x now (Cluster.arrival (r.posted url)) = .done reply) ∨
      Api.respond x now (Cluster.arrival (r.posted url)) =
        (x.process r).run.bind fun result => .done (.ofResult result) := by
  have hread : ∀ c : Api.Call, c.body = Text.Utf8.encode (Record.text r) →
      (∃ reply, Api.readRequest c = .error reply) ∨ Api.readRequest c = .ok r := by
    intro c hbody
    rw [Api.readRequest]
    split
    · exact .inl ⟨_, rfl⟩
    split
    · exact .inl ⟨_, rfl⟩
    rw [hbody, hr.kept.ofInput_encode]
    exact .inr rfl
  have hbody : (Cluster.arrival (r.posted url)).body = Text.Utf8.encode (Record.text r) := by
    unfold Request.posted Cluster.arrival
    with_reducible rfl
  have hmethod : (Cluster.arrival (r.posted url)).method = .post := by
    unfold Request.posted Cluster.arrival
    with_reducible rfl
  rw [Api.respond, hmethod]
  split
  · exact .inl ⟨_, rfl⟩
  split
  · rcases hread _ hbody with ⟨reply, hreply⟩ | hok
    · exact .inl ⟨reply, by simp only [hreply]⟩
    · exact .inr (by simp only [hok])
  · exact .inl ⟨_, rfl⟩

theorem passes_exchange (hr : r.IsPlain) (h : ∀ j, P j r) (url : Http.Url) :
    l.Passes P (l.exchange (r.posted url)) := by
  rw [exchange]
  split
  · exact passes_done _
  next j _ =>
    refine Passes.map ?_ _
    rw [hears]
    rcases respond_arrival (l.agent j).executor l.now hr url with ⟨reply, hreply⟩ | hrun
    · rw [hreply]
      exact passes_done (some reply)
    · rw [hrun, Task.within_map, onHost_map]
      exact (passes_runsWithin (h j) Peer.patience).map _

theorem passes_forward (hr : r.IsPlain) (h : ∀ j, P j r) (host : Host) :
    l.Passes P (l.forward host r) := by
  rw [forward]
  cases haddress :
      Http.address? ("http://" ++ l.network.dial host.address ++ Peer.schedulePath) with
  | error f =>
    unfold Peer.forward
    rw [haddress]
    exact passes_done _
  | ok url =>
    have hrun := Peer.forward_run (h := { host with address := l.network.dial host.address }) r
      haddress
    rw [hrun, Task.interpret]
    refine (passes_exchange hr h url).bind_done fun o => ?_
    cases o <;> exact ⟨_, rfl⟩

theorem passes_dispatch (hr : r.IsPlain) (h : ∀ j, P j r) (i : Fin n) :
    l.Passes P (((l.agent i).scheduler.dispatch r).run.interpret (l.route i)) := by
  by_cases hto : r.target.hostId = (l.agent i).scheduler.host.uuid
  · rw [Scheduler.dispatch_here hto]
    change l.Passes P ((l.route i (.run r)).bind .done)
    rw [Task.bind_done, route_run]
    exact passes_runs (h i)
  · rw [Scheduler.dispatch_there hto]
    refine passes_ask (fun _ => rfl) fun a => ?_
    change l.Passes P (((l.agent i).scheduler.routed r a).interpret (l.route i))
    unfold Scheduler.routed
    split
    · exact passes_done _
    · exact passes_done _
    next host _ =>
      change l.Passes P ((l.route i (.forward host r)).bind .done)
      rw [Task.bind_done, route_forward]
      exact passes_ask (fun _ => rfl) fun _ => passes_forward hr h host

/-- Whatever becomes of a request that names no host, it is carried out once at most, with a host
put in. -/
theorem passes_schedule (hempty : r.target.hostId = "") (hr : ∀ id, (r.placedAt id).IsPlain)
    (h : ∀ j id, P j (r.placedAt id)) (i : Fin n) :
    l.Passes P (l.asks i fun a => a.schedule r) := by
  rw [asks_schedule, Scheduler.schedule_placed hempty]
  refine passes_ask (fun _ => rfl) fun a => ?_
  change l.Passes P (((l.agent i).scheduler.placed r a).interpret (l.route i))
  unfold Scheduler.placed
  split
  · exact passes_done _
  · exact passes_done _
  next first rest _ =>
    exact passes_dispatch (hr _) (fun j => h j _) i

end Layout

end HostAgent
