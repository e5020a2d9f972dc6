import HostAgent.Proofs.Cluster.Answers
import HostAgent.Proofs.Cluster.Demands
import HostAgent.Proofs.Record.Normal
import HostAgent.Proofs.Store.Disturbances
import HostAgent.Proofs.Store.Space

namespace HostAgent

/-!
# Where a request is scheduled

A request that names a host is carried out there once, whichever agent it is given to, and its
result comes back as that host has it. An error only tells where it comes from. Another agent has to
find the record of the host for that, and it waits for the result three minutes at most.
-/

variable {n : Nat} {α β : Type}

namespace Scheduler

variable {p : Scheduler} {r : Request}

theorem dispatch_here (hto : r.target.hostId = p.host.uuid) :
    (p.dispatch r).run = .ask (.run r) .done := by
  rw [dispatch, if_pos hto]
  rfl

/-- What becomes of a request for another host once its record was read. -/
def routed (p : Scheduler) (r : Request) (a : Except Store.Error (Option Store.Entry)) :
    Task interface (Except AgentError Instance) :=
  match Store.Space.found (α := Host) a with
  | .error e => .done (.error (.store "get" (p.space.hostKey r.target.hostId) e))
  | .ok none => .done (.error (.notFound "host" r.target.hostId))
  | .ok (some h) => .ask (.forward h r) .done

theorem dispatch_there (hto : r.target.hostId ≠ p.host.uuid) :
    (p.dispatch r).run =
      .ask (.store (.get (p.space.hostKey r.target.hostId))) (routed p r) := by
  rw [dispatch, if_neg hto]
  simp only [ask, Store.Space.getHost_run]
  refine congrArg (Task.ask (I := interface) (.store (.get _))) (funext fun a => ?_)
  change Task.bind (.done ((Store.Space.found a).mapError _)) _ = _
  unfold routed
  cases Store.Space.found (α := Host) a with
  | error e => rfl
  | ok o =>
    cases o with
    | none => rfl
    | some h => rfl

theorem routed_of_registered {e : Store.Entry} {h : Host}
    (hdecode : Store.Space.decode e.value = .ok h) :
    routed p r (.ok (some e)) = .ask (.forward h r) .done := by
  rw [routed, Store.Space.found_eq_some_iff.mpr ⟨e, rfl, hdecode⟩]

theorem schedule_named (hne : r.target.hostId ≠ "") : p.schedule r = p.dispatch r := by
  rw [schedule, if_neg hne]

end Scheduler

theorem onHost_map (i : Fin n) (t : Task Executor.interface α) (f : α → β) :
    onHost i (t.bind fun a => .done (f a)) = (onHost i t).bind fun a => .done (f a) :=
  Task.interpret_bind _ t _

/-- A URL is the one that requests for a host are posted to, and it is the agent of an index that
listens there. -/
structure Network.Leads (w : Network n) (h : Host) (url : Http.Url) (j : Fin n) : Prop where
  address : Http.address? ("http://" ++ w.dial h.address ++ Peer.schedulePath) = .ok url
  path : url.path.text = Peer.schedulePath
  listener : w.listener url = some j

namespace Layout

variable {l : Layout n} {h : Host} {r : Request} {url : Http.Url} {i j : Fin n}

/-- The address that a host is registered with leads to the agent of an index. -/
def Serves (l : Layout n) (h : Host) (j : Fin n) : Prop := ∃ url, l.network.Leads h url j

/-- One run of a request by the executor of a host. -/
def runs (l : Layout n) (j : Fin n) (r : Request) : Task (Demand.interface n) (Result Instance) :=
  onHost j ((l.agent j).executor.process r).run

/-- One run of a request by the executor of a host that ends at the latest when its calls have
taken so long. -/
def runsWithin (l : Layout n) (limit : Time.Span) (j : Fin n) (r : Request) :
    Task (Demand.interface n) (Option (Result Instance)) :=
  onHost j (((l.agent j).executor.process r).run.within (l.pace j) limit.nanoseconds)

theorem arrival_posted {url : Http.Url} (hpath : url.path.text = Peer.schedulePath) :
    Cluster.arrival (r.posted url) = r.sent := by
  rw [Cluster.arrival, Request.sent, ← hpath]
  unfold Request.posted
  with_reducible rfl

theorem hears_sent (hr : r.IsPlain) (hfits : r.Fits) :
    l.hears j r.sent = (l.runsWithin Peer.patience j r).bind fun o =>
      .done (o.map Api.Reply.ofResult) := by
  rw [hears, Api.respond_sent _ _ hr hfits, Task.within_map, onHost_map, runsWithin]

theorem exchange_posted (hleads : l.network.Leads h url j) (hr : r.IsPlain) (hfits : r.Fits) :
    l.exchange (r.posted url) = (l.runsWithin Peer.patience j r).bind fun o =>
      .done (Cluster.heard (o.map Api.Reply.ofResult)) := by
  have hurl : l.network.listener (r.posted url).url = some j := by
    unfold Request.posted
    exact hleads.listener
  rw [exchange, hurl]
  simp only [arrival_posted hleads.path, hears_sent hr hfits, Task.bind_assoc, Task.done_bind]

/-- What another agent makes of what a host has come to, if that has come to an end: the result,
with the name of the host, the kind and the whole message for an error. -/
def relayed (h : Host) (url : Http.Url) : Option (Result Instance) → Result Instance
  | some result => result.mapError fun e => .remote h.uuid e.kind e.message
  | none => .error (.connectivity
      s!"failed to reach host {h.uuid}: error sending request for url ({url.text})")

/-- A request that leaves for another host is noted and run there for 180 seconds at most, and what
it comes to comes back. -/
def relays (l : Layout n) (j : Fin n) (h : Host) (url : Http.Url) (r : Request) :
    Task (Demand.interface n) (Result Instance) :=
  .ask (.note h r) fun _ => (l.runsWithin (.seconds 180) j r).bind fun o => .done (relayed h url o)

theorem forward_eq (hleads : l.network.Leads h url j) (hr : r.IsPlain) (hfits : r.Fits) :
    l.forward h r = (l.runsWithin (.seconds 180) j r).bind fun o => .done (relayed h url o) := by
  have hforward :=
    Peer.forward_run (h := { h with address := l.network.dial h.address }) r hleads.address
  rw [forward, hforward, Task.interpret, exchange_posted hleads hr hfits, Task.bind_assoc]
  refine congrArg (Task.bind (l.runsWithin Peer.patience j r)) (funext fun o => ?_)
  cases o with
  | none =>
    have hunreached :=
      Peer.unreached_sending { h with address := l.network.dial h.address } url.text
    exact congrArg (fun e => Task.done (Except.error e)) hunreached
  | some result => exact congrArg Task.done (Peer.outcome_ofResult _ result)

theorem process_eq (l : Layout n) (i : Fin n) (r : Request) :
    ((l.agent i).process r).run.interpret (l.carryOut i) = l.runs i r := by
  change (Task.interpret Agent.executorCall _).interpret _ = _
  rw [Task.interpret_interpret, runs, onHost]
  congr 1
  funext c
  cases c with
  | inl c => rfl
  | inr w => rfl

/-- A call of the scheduler on a host, as all that is asked for it. -/
def route (l : Layout n) (i : Fin n) (c : Scheduler.Call) : Task (Demand.interface n) c.Answer :=
  ((l.agent i).schedulerCall c).interpret (l.carryOut i)

theorem route_run (l : Layout n) (i : Fin n) (r : Request) : l.route i (.run r) = l.runs i r :=
  process_eq l i r

theorem route_forward (l : Layout n) (i : Fin n) (h : Host) (r : Request) :
    l.route i (.forward h r) = .ask (.note h r) fun _ => l.forward h r :=
  Task.bind_done (I := Demand.interface n) (.ask (.note h r) fun _ => l.forward h r)

theorem asks_schedule (l : Layout n) (i : Fin n) (r : Request) :
    l.asks i (fun a => a.schedule r) =
      ((l.agent i).scheduler.schedule r).run.interpret (l.route i) :=
  Task.interpret_interpret _ _ _

theorem asks_schedule_here (hto : r.target.hostId = (l.agent i).host.uuid)
    (hne : r.target.hostId ≠ "") : l.asks i (fun a => a.schedule r) = l.runs i r := by
  rw [asks_schedule, Scheduler.schedule_named hne, Scheduler.dispatch_here hto]
  change (l.route i (.run r)).bind .done = _
  rw [Task.bind_done, route_run]

theorem asks_schedule_there {key : String} (hleads : l.network.Leads h url j) (hr : r.IsPlain)
    (hfits : r.Fits) (hto : r.target.hostId ≠ (l.agent i).host.uuid) (hne : r.target.hostId ≠ "")
    (hkey : (l.agent i).space.hostKey r.target.hostId = key) :
    ∃ next : Except Store.Error (Option Store.Entry) → Task (Demand.interface n) (Result Instance),
      l.asks i (fun a => a.schedule r) = .ask (.store (.get key)) next ∧
      (∀ e, next (.error e) = .done (.error (.store "get" key e))) ∧
      ∀ e, Store.Space.decode e.value = .ok h → next (.ok (some e)) = l.relays j h url r := by
  have hnext : ∀ e, Store.Space.decode e.value = .ok h →
      ((l.agent i).scheduler.routed r (.ok (some e))).interpret (l.route i) =
        l.relays j h url r := by
    intro e hdecode
    rw [relays, ← forward_eq hleads hr hfits, Scheduler.routed_of_registered hdecode]
    exact (Task.bind_done _).trans (route_forward l i h r)
  subst hkey
  refine ⟨fun a => ((l.agent i).scheduler.routed r a).interpret (l.route i), ?_, ?_, hnext⟩
  · rw [asks_schedule, Scheduler.schedule_named hne, Scheduler.dispatch_there hto]
    rfl
  · exact fun _ => rfl

end Layout

namespace Cluster

/-! ## Runs -/

@[simp] theorem member_withMember (i : Fin n) (m : Member) (s : Cluster n) :
    (s.withMember i m).member i = m := by
  change (s.members.set i m i.isLt)[i.val] = m
  simp

@[simp] theorem withMember_withMember (i : Fin n) (m m' : Member) (s : Cluster n) :
    (s.withMember i m').withMember i m = s.withMember i m := by
  simp [withMember]

@[simp] theorem withMember_member (i : Fin n) (s : Cluster n) :
    s.withMember i (s.member i) = s := by
  change { s with members := s.members.set i s.members[i.val] i.isLt } = s
  simp

theorem run_stepMember (i : Fin n) (t : Task Executor.interface α) (s : Cluster n) :
    t.run (stepMember i) s = ((t.run Member.step (s.member i)).1,
      s.withMember i (t.run Member.step (s.member i)).2) := by
  apply Task.run_view (fun s : Cluster n => s.member i) (withMember i)
  · intro m s
    simp
  · intro m m' s
    simp
  · intro s
    simp
  · intro c s
    rfl

variable {s : Cluster n} {r : Request} {h : Host} {url : Http.Url} {i j : Fin n}

theorem run_onHost_of_run {t : Task Executor.interface α} {a : α} {m : Member}
    (hrun : t.run Member.step (s.member j) = (a, m)) :
    (onHost j t).run answer s = (a, s.withMember j m) := by
  rw [run_onHost, run_stepMember, hrun]

theorem run_relays {o : Option (Result Instance)} {m : Member}
    (hrun : (((s.member j).agent.executor.process r).run.within (s.member j).pace
      (Time.Span.seconds 180).nanoseconds).run Member.step (s.member j) = (o, m)) :
    (s.layout.relays j h url r).run answer s =
      (Layout.relayed h url o, (s.noteForward h r).withMember j m) := by
  have hruns : (s.layout.runsWithin (.seconds 180) j r).run answer (s.noteForward h r) =
      (o, (s.noteForward h r).withMember j m) := run_onHost_of_run hrun
  refine (Task.run_ask (I := Demand.interface n) answer (.note h r) _ s).trans ?_
  change Task.run answer ((s.layout.runsWithin _ j r).bind fun o => .done _) (s.noteForward h r) = _
  rw [Task.run_map, hruns]

/-! ## Location transparency -/

/-- A host is registered: its record is stored under its identifier. -/
def Registered (s : Cluster n) (space : Store.Space) (h : Host) : Prop :=
  ∃ e, s.store.memory.get? (space.hostKey h.uuid) = some e ∧ Store.Space.decode e.value = .ok h

/-- Agents of different hosts over one store, where the address that a host is registered with is
served by the agent of that host. -/
structure Connected (s : Cluster n) (space : Store.Space) : Prop where
  shared : ∀ i : Fin n, (s.member i).agent.space = space
  distinct : ∀ i j : Fin n,
    (s.member i).agent.host.uuid = (s.member j).agent.host.uuid → i = j
  served : ∀ h, s.Registered space h →
    ∃ j : Fin n, (s.member j).agent.host.uuid = h.uuid ∧ s.layout.Serves h j

theorem act_of_runs {op : Agent → Agent.Op Instance} {result : Result Instance} {m : Member}
    (hasks : s.layout.asks i op = s.layout.runs j r)
    (hrun : ((s.member j).agent.executor.process r).run.run Member.step (s.member j) =
      (result, m)) : s.act i op = (result, s.withMember j m) := by
  rw [act_eq_run, hasks]
  exact run_onHost_of_run hrun

section Away

variable {op : Agent → Agent.Op Instance} {key : String} {d : Store.Disturbed}
variable {next : Except Store.Error (Option Store.Entry) →
  Task (Demand.interface n) (Result Instance)}

theorem act_of_reading {a : Except Store.Error (Option Store.Entry)}
    (hasks : s.layout.asks i op = .ask (.store (.get key)) next)
    (hget : Store.Disturbed.step (.get key) s.store = (a, d)) :
    s.act i op = (next a).run answer { s with store := d } := by
  rw [act_eq_run, hasks]
  refine (Task.run_ask (I := Demand.interface n) answer (.store (.get key)) next s).trans ?_
  rw [answer, hget]

theorem act_of_unread {e : Store.Error}
    (hasks : s.layout.asks i op = .ask (.store (.get key)) next)
    (hnext : next (.error e) = .done (.error (.store "get" key e)))
    (hget : Store.Disturbed.step (.get key) s.store = (.error e, d)) :
    s.act i op = (.error (.store "get" key e), { s with store := d }) := by
  rw [act_of_reading hasks hget, hnext]
  rfl

theorem act_of_relays {e : Store.Entry}
    (hasks : s.layout.asks i op = .ask (.store (.get key)) next)
    (hnext : next (.ok (some e)) = s.layout.relays j h url r)
    (hget : Store.Disturbed.step (.get key) s.store = (.ok (some e), d))
    {o : Option (Result Instance)} {m : Member}
    (hrun : (((s.member j).agent.executor.process r).run.within (s.member j).pace
      (Time.Span.seconds 180).nanoseconds).run Member.step (s.member j) = (o, m)) :
    s.act i op = (Layout.relayed h url o,
      ({ s with store := d }.noteForward h r).withMember j m) := by
  rw [act_of_reading hasks hget, hnext]
  exact run_relays (s := { s with store := d }) hrun

end Away

/-- Whichever agent is given a request for a registered host, the request is run once, by the
executor of that host, and nothing else is asked of any host. The agent of the host passes the
result on. Another one reads the record of the host before, and if the store fails that reading,
this is its error and nothing is run. To an error of the run it puts the name of the host, its kind
and its whole message. So all hosts end as after that run, whoever was given the request, if the
calls of the run take 180 seconds at most. If they take longer, another agent gives up, and at the
host it stays at what was done by then. -/
theorem schedule_anywhere {space : Store.Space} {h : Host} (hs : s.Connected space)
    (hh : s.Registered space h) (hr : r.IsPlain) (hfits : r.Fits) (hto : r.target.hostId = h.uuid)
    (hne : h.uuid ≠ "") :
    ∃ (j : Fin n) (url : Http.Url),
      (s.member j).agent.host.uuid = h.uuid ∧ s.network.Leads h url j ∧
      s.layout.asks j (fun a => a.schedule r) = s.layout.runs j r ∧
      (∀ i, i ≠ j → ∃ next : Except Store.Error (Option Store.Entry) → _,
        s.layout.asks i (fun a => a.schedule r) = .ask (.store (.get (space.hostKey h.uuid))) next ∧
        (∀ e, next (.error e) = .done (.error (.store "get" (space.hostKey h.uuid) e))) ∧
        ∀ e, Store.Space.decode e.value = .ok h →
          next (.ok (some e)) = s.layout.relays j h url r) ∧
      ∃ (result : Result Instance) (m : Member) (time : Nat),
        ((s.member j).agent.executor.process r).run.run Member.step (s.member j) = (result, m) ∧
        ((s.member j).agent.executor.process r).run.elapsed Member.step (s.member j).pace
          (s.member j) = time ∧
        s.act j (fun a => a.schedule r) = (result, s.withMember j m) ∧
        ∀ i, i ≠ j →
          (∀ e d, Store.Disturbed.step (.get (space.hostKey h.uuid)) s.store = (.error e, d) →
            s.act i (fun a => a.schedule r) =
              (.error (.store "get" (space.hostKey h.uuid) e), { s with store := d })) ∧
          ∀ a d, Store.Disturbed.step (.get (space.hostKey h.uuid)) s.store = (.ok a, d) →
            (time ≤ (Time.Span.seconds 180).nanoseconds → s.act i (fun a => a.schedule r) =
              (result.mapError fun e => .remote h.uuid e.kind e.message,
                ({ s with store := d }.noteForward h r).withMember j m)) ∧
            ((Time.Span.seconds 180).nanoseconds < time → ∃ m',
              (((s.member j).agent.executor.process r).run.within (s.member j).pace
                (Time.Span.seconds 180).nanoseconds).run Member.step (s.member j) = (none, m') ∧
              s.act i (fun a => a.schedule r) = (.error (.connectivity
                  s!"failed to reach host {h.uuid}: error sending request for url ({url.text})"),
                ({ s with store := d }.noteForward h r).withMember j m')) := by
  obtain ⟨j, hj, url, hleads⟩ := hs.served h hh
  have hnamed : r.target.hostId ≠ "" := by
    rw [hto]
    exact hne
  have hhere : s.layout.asks j (fun a => a.schedule r) = s.layout.runs j r :=
    Layout.asks_schedule_here (hto.trans hj.symm) hnamed
  have hthere : ∀ i, i ≠ j → ∃ next : Except Store.Error (Option Store.Entry) → _,
      s.layout.asks i (fun a => a.schedule r) = .ask (.store (.get (space.hostKey h.uuid))) next ∧
      (∀ e, next (.error e) = .done (.error (.store "get" (space.hostKey h.uuid) e))) ∧
      ∀ e, Store.Space.decode e.value = .ok h →
        next (.ok (some e)) = s.layout.relays j h url r := by
    intro i hij
    have hkey : (s.layout.agent i).space.hostKey r.target.hostId = space.hostKey h.uuid := by
      rw [hto, ← hs.shared i]
      rfl
    have haway : r.target.hostId ≠ (s.member i).agent.host.uuid := by
      intro heq
      apply hij
      apply hs.distinct
      rw [← heq, hto, hj]
    exact Layout.asks_schedule_there hleads hr hfits haway hnamed hkey
  obtain ⟨⟨result, m⟩, hrun⟩ :
      ∃ p, ((s.member j).agent.executor.process r).run.run Member.step (s.member j) = p := ⟨_, rfl⟩
  refine ⟨j, url, hj, hleads, hhere, hthere, result, m, _, hrun, rfl, act_of_runs hhere hrun, ?_⟩
  obtain ⟨entry, hentry, hdecode⟩ := hh
  intro i hij
  obtain ⟨next, hasks, hunread, hread⟩ := hthere i hij
  refine ⟨fun e d hget => act_of_unread hasks (hunread e) hget, fun a d hget => ?_⟩
  obtain rfl : a = some entry := (Store.Disturbed.eq_get?_of_step hget).trans hentry
  constructor
  · intro htime
    exact act_of_relays hasks (hread entry hdecode) hget (Task.run_within_of_le hrun htime)
  · intro htime
    obtain ⟨m', hcut⟩ := Task.run_within_of_lt htime
    exact ⟨m', hcut, act_of_relays hasks (hread entry hdecode) hget hcut⟩

/-! ### Two hosts -/

def west : Host := ⟨"west", "west", "10.0.0.1:9090"⟩

def east : Host := ⟨"east", "east", "10.0.0.2:9090"⟩

def eastUrl : Http.Url :=
  ⟨"http", some "10.0.0.2", some 9090, .segments ["v1", "schedule"], none, none⟩

def memberOf (h : Host) : Member :=
  .ofAgent ⟨h, ⟨"/longhorn"⟩, default, "longhorn-engine"⟩ default

/-- Two hosts, of which east is registered. -/
def pair : Cluster 2 where
  store := .ofMemory (.write .empty "/longhorn/hosts/east" (Record.text east))
  members := #v[memberOf west, memberOf east]
  network := ⟨id, fun url => if url = eastUrl then some 1 else none⟩
  now := ⟨⟨2018, 3, 1, by decide⟩, 12, 0, 0, 0, by decide⟩
  choose := fun _ => 0
  forwards := []

theorem leads_pair : pair.network.Leads east eastUrl 1 where
  address := by decide +kernel
  path := by decide +kernel
  listener := by decide +kernel

theorem get?_pair : pair.store.memory.get? "/longhorn/hosts/east" =
    some ⟨Record.text east, 1⟩ := by
  decide +kernel

theorem step_get_pair : Store.Disturbed.step (.get "/longhorn/hosts/east") pair.store =
    (.ok (some ⟨Record.text east, 1⟩),
      { pair.store with calls := [.get "/longhorn/hosts/east"] }) :=
  Prod.ext (congrArg Except.ok get?_pair) rfl

theorem registered_iff_of_memory {s : Cluster 2} (hmemory : s.store.memory = pair.store.memory)
    {h : Host} : s.Registered ⟨"/longhorn"⟩ h ↔ h = east := by
  unfold Registered
  rw [hmemory]
  constructor
  · rintro ⟨e, hentry, hdecode⟩
    change (Store.Memory.write _ _ _).get? _ = _ at hentry
    rw [Store.Memory.get?_write] at hentry
    split at hentry
    · cases hentry
      rw [Store.Space.decode_text] at hdecode
      cases hdecode
      rfl
    · cases hentry
  · rintro rfl
    exact ⟨⟨Record.text east, 1⟩, get?_pair, Store.Space.decode_text east⟩

/-- What engines and budgets are like, and what calls do next, is no part of how agents are
connected. -/
theorem connected_of_like_pair {s : Cluster 2} (hmemory : s.store.memory = pair.store.memory)
    (hnetwork : s.network = pair.network)
    (hspace : ∀ i : Fin 2, (s.member i).agent.space = ⟨"/longhorn"⟩)
    (hhost : ∀ i : Fin 2, (s.member i).agent.host = (pair.member i).agent.host) :
    s.Connected ⟨"/longhorn"⟩ where
  shared := hspace
  distinct i j h := by
    rw [hhost, hhost] at h
    revert i j
    decide
  served h hh := by
    obtain rfl := (registered_iff_of_memory hmemory).mp hh
    refine ⟨1, congrArg Host.uuid (hhost 1), eastUrl, ?_⟩
    change s.network.Leads east eastUrl 1
    rw [hnetwork]
    exact leads_pair

/-- A request to start a container that east does not have. -/
def startMissing : Request := ⟨.startInstance, ⟨"mock", .controller, "east"⟩, .empty "docker"⟩

theorem isPlain_startMissing : startMissing.IsPlain where
  action := rfl
  envelope := by
    intro v hv
    cases hv
  shallow := by decide

theorem fits_startMissing : startMissing.Fits :=
  Request.fits_of_print (by decide +kernel)

theorem eq_one_of_east : ∀ j : Fin 2, (pair.member j).agent.host.uuid = "east" → j = 1 := by
  decide

/-- East has no such container, whoever is asked for its start. -/
theorem schedule_anywhere_pair :
    ∃ (result : Result Instance) (m : Member) (d : Store.Disturbed),
      ((pair.member 1).agent.executor.process startMissing).run.run Member.step (pair.member 1) =
        (result, m) ∧
      pair.act 1 (fun a => a.schedule startMissing) = (result, pair.withMember 1 m) ∧
      pair.act 0 (fun a => a.schedule startMissing) =
        (result.mapError fun e => .remote "east" e.kind e.message,
          ({ pair with store := d }.noteForward east startMissing).withMember 1 m) := by
  obtain ⟨j, url, hj, -, -, -, result, m, time, hrun, htime, hhere, hthere⟩ :=
    schedule_anywhere (connected_of_like_pair rfl rfl (by decide) (by decide))
      ((registered_iff_of_memory rfl).mpr rfl) isPlain_startMissing fits_startMissing rfl
      (by decide)
  obtain rfl := eq_one_of_east j hj
  have hquick : time ≤ (Time.Span.seconds 180).nanoseconds := by
    rw [← htime]
    decide +kernel
  exact ⟨result, m, _, hrun, hhere, ((hthere 0 (by decide)).2 _ _ step_get_pair).1 hquick⟩

/-! ### Answers that do not come -/

/-- A request to create a controller without replicas. -/
def createE1 : Request :=
  ⟨.createController, ⟨"e1", .controller, "east"⟩,
    .withPayload "docker" (⟨"e1", "v1", "longhorn-engine", []⟩ : ControllerPayload)⟩

theorem isPlain_createE1 : createE1.IsPlain :=
  Request.isPlain_withPayload rfl nofun (Request.depth_controllerPayload _)

theorem fits_createE1 : createE1.Fits :=
  Request.fits_of_print (by decide +kernel)

/-- East waits up to 300 seconds for a device, and it takes 200 seconds to appear. -/
def slowPair : Cluster 2 :=
  { pair with
    members := #v[memberOf west,
      { Member.ofAgent ⟨east, ⟨"/longhorn"⟩, { Budgets.standard with device := .seconds 300 },
          "longhorn-engine"⟩ default with
        pace := fun
          | .inr (.path _ _), _ => (Time.Span.seconds 200).nanoseconds
          | _, _ => 0 }] }

/-- The store fails the first reading. -/
def faultyPair : Cluster 2 :=
  { pair with store := pair.store.addFaults .get [some (.unavailable "down")] }

theorem run_createE1_slowPair : ∃ (x : Instance) (m : Member),
    ((slowPair.member 1).agent.executor.process createE1).run.run Member.step (slowPair.member 1) =
      (.ok x, m) ∧
    (Time.Span.seconds 180).nanoseconds <
      ((slowPair.member 1).agent.executor.process createE1).run.elapsed Member.step
        (slowPair.member 1).pace (slowPair.member 1) :=
  ⟨_, _, rfl, by decide +kernel⟩

theorem run_createE1_faultyPair : ∃ (x : Instance) (m : Member),
    ((faultyPair.member 1).agent.executor.process createE1).run.run Member.step
      (faultyPair.member 1) = (.ok x, m) :=
  ⟨_, _, rfl⟩

theorem asks_createE1_west {l : Layout 2} (hleads : l.network.Leads east eastUrl 1)
    (hwest : l.agent 0 = pair.layout.agent 0) :
    ∃ next : Except Store.Error (Option Store.Entry) → Task (Demand.interface 2) (Result Instance),
      l.asks 0 (fun a => a.schedule createE1) = .ask (.store (.get "/longhorn/hosts/east")) next ∧
      (∀ e, next (.error e) = .done (.error (.store "get" "/longhorn/hosts/east" e))) ∧
      ∀ e, Store.Space.decode e.value = .ok east →
        next (.ok (some e)) = l.relays 1 east eastUrl createE1 := by
  apply Layout.asks_schedule_there hleads isPlain_createE1 fits_createE1
  · rw [hwest]
    decide
  · decide
  · rw [hwest]
    rfl

/-- What west has to say when it has waited for east long enough. -/
def eastSilent : AgentError := .connectivity <|
  "failed to reach host east: error sending request for url " ++
    "(http://10.0.0.2:9090/v1/schedule)"

theorem relayed_none_east : Layout.relayed east eastUrl none = .error eastSilent := by
  decide +kernel

/-- East creates the controller if it is asked itself. West does not get the answer if the device
takes longer to appear than west waits, and if the store fails the reading of the record, west has
nothing done at all. -/
theorem schedule_differs_away :
    (createE1.IsPlain ∧ createE1.Fits ∧ createE1.target.hostId = east.uuid ∧ east.uuid ≠ "") ∧
    (slowPair.Connected ⟨"/longhorn"⟩ ∧ slowPair.Registered ⟨"/longhorn"⟩ east ∧
      (∃ x, (slowPair.act 1 fun a => a.schedule createE1).1 = .ok x) ∧
      (slowPair.act 0 fun a => a.schedule createE1).1 = .error eastSilent) ∧
    faultyPair.Connected ⟨"/longhorn"⟩ ∧ faultyPair.Registered ⟨"/longhorn"⟩ east ∧
      (∃ x, (faultyPair.act 1 fun a => a.schedule createE1).1 = .ok x) ∧
      (faultyPair.act 0 fun a => a.schedule createE1).1 =
        .error (.store "get" "/longhorn/hosts/east" (.unavailable "down")) ∧
      ((faultyPair.act 0 fun a => a.schedule createE1).2.member 1).engine.calls = [] := by
  refine ⟨⟨isPlain_createE1, fits_createE1, rfl, by decide⟩, ?_, ?_⟩
  · obtain ⟨x, m, hrun, htime⟩ := run_createE1_slowPair
    have hhere := act_of_runs (Layout.asks_schedule_here (i := 1) rfl (by decide)) hrun
    obtain ⟨next, hasks, -, hread⟩ := asks_createE1_west (l := slowPair.layout) leads_pair rfl
    obtain ⟨m', hcut⟩ := Task.run_within_of_lt htime
    have haway :=
      act_of_relays hasks (hread ⟨_, 1⟩ (Store.Space.decode_text east)) step_get_pair hcut
    refine ⟨connected_of_like_pair rfl rfl (by decide) (by decide),
      (registered_iff_of_memory rfl).mpr rfl, ⟨x, ?_⟩, ?_⟩
    · exact congrArg Prod.fst hhere
    · rw [haway]
      exact relayed_none_east
  · obtain ⟨x, m, hrun⟩ := run_createE1_faultyPair
    have hhere := act_of_runs (Layout.asks_schedule_here (i := 1) rfl (by decide)) hrun
    obtain ⟨next, hasks, hunread, -⟩ := asks_createE1_west (l := faultyPair.layout) leads_pair rfl
    have haway := act_of_unread hasks (hunread _) rfl
    refine ⟨connected_of_like_pair rfl rfl (by decide) (by decide),
      (registered_iff_of_memory rfl).mpr rfl, ⟨x, ?_⟩, ?_, ?_⟩
    · exact congrArg Prod.fst hhere
    · rw [haway]
    · rw [haway]
      rfl

end Cluster

end HostAgent
