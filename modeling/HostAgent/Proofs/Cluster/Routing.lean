import HostAgent.Proofs.Cluster.Passage

namespace HostAgent

/-!
# Where requests are carried out

The sender of a request decides where it is carried out, by the record that it finds for the host
that is named. The agent that hears what is sent to the recorded address carries it out without a
look at the host, so an address that was taken over, or a request that is posted to any agent, has
it carried out there.
-/

variable {n : Nat} {α β : Type}

/-- The host on which something is asked, if it is asked of one. -/
def hostOf? (x : Exchange (Demand.interface n)) : Option (Fin n) :=
  match x.1 with
  | .host j _ => some j
  | .store _ | .note _ _ => none

/-- Whatever a task is answered, it asks nothing of any host but one, or of no host at all. -/
def Confined (place : Option (Fin n)) (t : Task (Demand.interface n) α) : Prop :=
  ∀ d u, Task.Path t d u → ∀ x ∈ d, ∀ j, hostOf? x = some j → place = some j

section Confined

variable {place : Option (Fin n)} {t : Task (Demand.interface n) α}

theorem confined_done (a : α) : Confined place (.done a : Task (Demand.interface n) α) := by
  intro d u h
  obtain ⟨rfl, -⟩ := Task.path_done_iff.mp h
  exact List.forall_mem_nil _

theorem confined_ask_iff {c : Demand n} {next : c.Answer → Task (Demand.interface n) α} :
    Confined place (.ask (I := Demand.interface n) c next) ↔
      ∀ a, (∀ j, hostOf? ⟨c, a⟩ = some j → place = some j) ∧ Confined place (next a) := by
  constructor
  · intro h a
    refine ⟨h _ _ (.cons a (.nil _)) _ List.mem_cons_self, fun d u hd x hx => ?_⟩
    exact h _ u (.cons a hd) x (List.mem_cons_of_mem _ hx)
  · intro h d u hd
    rcases Task.path_ask_iff.mp hd with ⟨rfl, -⟩ | ⟨a, d', rfl, hd'⟩
    · exact List.forall_mem_nil _
    · exact List.forall_mem_cons.mpr ⟨(h a).1, (h a).2 d' u hd'⟩

theorem Confined.bind {f : α → Task (Demand.interface n) β} (h : Confined place t)
    (hf : ∀ a, Confined place (f a)) : Confined place (t.bind f) := by
  intro d u hd
  rcases hd.of_bind with ⟨c, next, -, hp⟩ | ⟨d₁, d₂, a, rfl, hp, hq⟩
  · exact h d _ hp
  · intro x hx
    rcases List.mem_append.mp hx with hx | hx
    · exact h d₁ _ hp x hx
    · exact hf a d₂ u hq x hx

theorem confined_onHost (j : Fin n) (t : Task Executor.interface α) :
    Confined (some j) (onHost j t) := by
  induction t with
  | done a => exact confined_done a
  | ask c next ih => exact confined_ask_iff.mpr fun a => ⟨fun _ h => h, ih a⟩

end Confined

namespace Layout

variable {l : Layout n} {r : Request} {i : Fin n}

/-- Who hears what is sent to the address that a host is registered with. -/
def hearer? (l : Layout n) (h : Host) : Option (Fin n) :=
  match Http.address? ("http://" ++ l.network.dial h.address ++ Peer.schedulePath) with
  | .error _ => none
  | .ok url => l.network.listener url

/-- Who hears a request whose host was looked up with an answer. -/
def recipient? (l : Layout n) (a : Except Store.Error (Option Store.Entry)) : Option (Fin n) :=
  match Store.Space.found (α := Host) a with
  | .ok (some h) => l.hearer? h
  | .ok none | .error _ => none

/-- What the agent of a host does with something that is posted to it. -/
def serves (l : Layout n) (j : Fin n) (c : Api.Call) : Task (Demand.interface n) Api.Reply :=
  onHost j (Api.respond (l.agent j).executor l.now c)

theorem hearer?_of_leads {h : Host} {url : Http.Url} {j : Fin n}
    (hleads : l.network.Leads h url j) : l.hearer? h = some j := by
  unfold hearer?
  rw [hleads.address]
  exact hleads.listener

theorem recipient?_of_found {h : Host} {a : Except Store.Error (Option Store.Entry)}
    (hfound : Store.Space.found (α := Host) a = .ok (some h)) : l.recipient? a = l.hearer? h := by
  rw [recipient?, hfound]

theorem confined_exchange (r : Http.Request) :
    Confined (l.network.listener r.url) (l.exchange r) := by
  rw [exchange]
  split
  · exact confined_done _
  next j hj =>
    rw [hj]
    exact (confined_onHost j _).bind fun _ => confined_done _

theorem forward_of_address {h : Host} {url : Http.Url} (r : Request)
    (haddress : Http.address? ("http://" ++ l.network.dial h.address ++ Peer.schedulePath) =
      .ok url) :
    l.forward h r = (l.exchange (r.posted url)).bind fun
      | .answered response =>
        .done (Peer.outcome { h with address := l.network.dial h.address } response)
      | .refused | .timedOut | .closed =>
        .done (.error (Peer.unreached h (.sending url.text))) := by
  have hrun := Peer.forward_run (h := { h with address := l.network.dial h.address }) r haddress
  rw [forward, hrun]
  refine congrArg (Task.bind (l.exchange (r.posted url))) (funext fun o => ?_)
  cases o <;> rfl

theorem confined_forward (h : Host) (r : Request) : Confined (l.hearer? h) (l.forward h r) := by
  unfold hearer?
  split
  next e haddress =>
    unfold forward Peer.forward
    rw [haddress]
    exact confined_done _
  next url haddress =>
    rw [forward_of_address r haddress]
    refine (confined_exchange (l := l) (r.posted url)).bind fun o => ?_
    cases o <;> exact confined_done _

/-- A request that nobody hears ends in an error. -/
theorem forward_unheard {h : Host} (r : Request) (hnobody : l.hearer? h = none) :
    ∃ e, l.forward h r = .done (.error e) := by
  unfold hearer? at hnobody
  split at hnobody
  next e haddress =>
    unfold forward Peer.forward
    rw [haddress]
    exact ⟨_, rfl⟩
  next url haddress =>
    have hlistener : l.network.listener (r.posted url).url = none := by
      unfold Request.posted
      exact hnobody
    rw [forward_of_address r haddress, exchange, hlistener]
    exact ⟨_, rfl⟩

theorem asks_schedule_routed (hto : r.target.hostId ≠ (l.agent i).host.uuid)
    (hnamed : r.target.hostId ≠ "") :
    l.asks i (fun a => a.schedule r) =
      .ask (.store (.get ((l.agent i).space.hostKey r.target.hostId))) fun a =>
        ((l.agent i).scheduler.routed r a).interpret (l.route i) := by
  rw [asks_schedule, Scheduler.schedule_named hnamed, Scheduler.dispatch_there hto]
  rfl

/-- What becomes of a request once the record of its host was read. -/
theorem interpret_routed (l : Layout n) (i : Fin n) (r : Request)
    (a : Except Store.Error (Option Store.Entry)) :
    (∃ e, ((l.agent i).scheduler.routed r a).interpret (l.route i) = .done (.error e)) ∧
        l.recipient? a = none ∨
      ∃ h, ((l.agent i).scheduler.routed r a).interpret (l.route i) =
          .ask (.note h r) (fun _ => l.forward h r) ∧ l.recipient? a = l.hearer? h := by
  unfold Scheduler.routed recipient?
  cases Store.Space.found (α := Host) a with
  | error e => exact .inl ⟨⟨_, rfl⟩, rfl⟩
  | ok o =>
    cases o with
    | none => exact .inl ⟨⟨_, rfl⟩, rfl⟩
    | some h => exact .inr ⟨h, (Task.bind_done _).trans (route_forward l i h r), rfl⟩

theorem confined_routed (l : Layout n) (i : Fin n) (r : Request)
    (a : Except Store.Error (Option Store.Entry)) :
    Confined (l.recipient? a) (((l.agent i).scheduler.routed r a).interpret (l.route i)) := by
  rcases interpret_routed l i r a with ⟨⟨e, he⟩, -⟩ | ⟨h, hforward, hrecipient⟩
  · rw [he]
    exact confined_done _
  · rw [hforward, hrecipient]
    exact confined_ask_iff.mpr fun _ => ⟨nofun, confined_forward h r⟩

theorem error_of_unheard {a : Except Store.Error (Option Store.Entry)}
    {d : List (Exchange (Demand.interface n))} {result : Result Instance}
    (hnobody : l.recipient? a = none)
    (hd : Task.Path (((l.agent i).scheduler.routed r a).interpret (l.route i)) d (.done result)) :
    ∃ e, result = .error e := by
  rcases interpret_routed l i r a with ⟨⟨e, he⟩, -⟩ | ⟨h, hforward, hrecipient⟩
  · rw [he] at hd
    obtain ⟨-, hresult⟩ := Task.path_done_iff.mp hd
    cases hresult
    exact ⟨e, rfl⟩
  · obtain ⟨e, he⟩ := forward_unheard r (hrecipient.symm.trans hnobody)
    rw [hforward, he] at hd
    obtain ⟨_, _, _, hdone⟩ := Task.path_ask_done_iff.mp hd
    obtain ⟨-, hresult⟩ := Task.path_done_iff.mp hdone
    cases hresult
    exact ⟨e, rfl⟩

/-- A request that names a host is carried out by the agent that it is given to, if it names that
host, and else by none but the one that hears what is sent to the address that the store has for the
host. If nobody hears it there, or there is no address, the result is an error. An agent asks
nothing of another host for what is posted to it, and to its executor it does not matter which host
a request names. -/
theorem carried_out_where_heard (l : Layout n) (i : Fin n) (hnamed : r.target.hostId ≠ "") :
    (r.target.hostId = (l.agent i).host.uuid →
      Confined (some i) (l.asks i fun a => a.schedule r)) ∧
    (r.target.hostId ≠ (l.agent i).host.uuid →
      ∃ next : Except Store.Error (Option Store.Entry) →
          Task (Demand.interface n) (Result Instance),
        l.asks i (fun a => a.schedule r) =
          .ask (.store (.get ((l.agent i).space.hostKey r.target.hostId))) next ∧
        ∀ a, Confined (l.recipient? a) (next a) ∧
          (l.recipient? a = none → ∀ d result, Task.Path (next a) d (.done result) →
            ∃ e, result = .error e)) ∧
    (∀ c, Confined (some i) (l.serves i c)) ∧
    ∀ hostId, (l.agent i).executor.process (r.placedAt hostId) =
      (l.agent i).executor.process r := by
  refine ⟨fun hown => ?_, fun haway => ?_, fun c => confined_onHost i _, fun _ => rfl⟩
  · rw [asks_schedule_here hown hnamed]
    exact confined_onHost i _
  · refine ⟨_, asks_schedule_routed haway hnamed, fun a => ⟨confined_routed l i r a, ?_⟩⟩
    intro hnobody d result hd
    exact error_of_unheard hnobody hd

end Layout

namespace Cluster

/-- West has a request for east carried out by east, and cannot if there is no record of it. -/
theorem carried_out_where_heard_pair :
    startMissing.target.hostId ≠ "" ∧
    ∃ next : Except Store.Error (Option Store.Entry) → Task (Demand.interface 2) (Result Instance),
      pair.layout.asks 0 (fun a => a.schedule startMissing) =
        .ask (.store (.get "/longhorn/hosts/east")) next ∧
      Confined (some 1) (next (.ok (some ⟨Record.text east, 1⟩))) ∧
      ∀ d result, Task.Path (next (.ok none)) d (.done result) → ∃ e, result = .error e := by
  have hfound : Store.Space.found (α := Host) (.ok (some ⟨Record.text east, 1⟩)) =
      .ok (some east) :=
    Store.Space.found_eq_some_iff.mpr ⟨_, rfl, Store.Space.decode_text east⟩
  have hrecipient := (Layout.recipient?_of_found hfound).trans
    (Layout.hearer?_of_leads (l := pair.layout) leads_pair)
  obtain ⟨-, haway, -⟩ :=
    Layout.carried_out_where_heard (r := startMissing) pair.layout 0 (by decide)
  obtain ⟨next, hasks, hnext⟩ := haway (by decide)
  refine ⟨by decide, next, hasks, ?_, (hnext _).2 rfl⟩
  rw [← hrecipient]
  exact (hnext _).1

variable {s : Cluster n} {i j : Fin n} {r : Request}

theorem member_stepMember_of_ne (h : i ≠ j) (c : Executor.interface.Call) (s : Cluster n) :
    (s.stepMember i c).2.member j = s.member j := by
  have hval : i.val ≠ j.val := Fin.val_ne_of_ne h
  exact Vector.getElem_set_ne i.isLt j.isLt hval

/-- A task leaves all hosts as they are but the one where it stays. -/
theorem member_run_of_confined {place : Option (Fin n)} {t : Task (Demand.interface n) α}
    (ht : Confined place t) (hj : place ≠ some j) (s : Cluster n) :
    (t.run answer s).2.member j = s.member j := by
  induction t generalizing s with
  | done a => rfl
  | ask c next ih =>
    obtain ⟨hc, hnext⟩ := confined_ask_iff.mp ht (answer c s).1
    rw [Task.run_ask, ih _ hnext]
    cases c with
    | store c => rfl
    | note h r => rfl
    | host k c =>
      have hkj : k ≠ j := by
        rintro rfl
        exact hj (hc k rfl)
      exact member_stepMember_of_ne hkj c s

/-- A host keeps its containers and waits when a request is given to another agent, unless that
agent finds a record for the host that the request names, and it is heard here what is sent to the
recorded address. -/
theorem member_act_schedule (hnamed : r.target.hostId ≠ "") (hij : i ≠ j)
    (hunheard : s.layout.recipient? (Store.Disturbed.step
      (.get ((s.member i).agent.space.hostKey r.target.hostId)) s.store).1 ≠ some j) :
    (s.act i fun a => a.schedule r).2.member j = s.member j := by
  rw [act_eq_run]
  by_cases hown : r.target.hostId = (s.layout.agent i).host.uuid
  · rw [Layout.asks_schedule_here hown hnamed]
    exact member_run_of_confined (confined_onHost i _) (by simpa using hij) s
  · rw [Layout.asks_schedule_routed hown hnamed, Task.run_ask]
    exact member_run_of_confined (Layout.confined_routed _ i r _) hunheard _

/-! ### An address that was taken over -/

def heir : Host := ⟨"heir", "heir", east.address⟩

/-- East is registered still, but its address is another host's now, which has a container. -/
def takenOver : Cluster 2 :=
  { pair with
    members := #v[memberOf west,
      { memberOf heir with
        engine := { (default : Container.Engine) with
          containers := .insert .empty "mock" ⟨"mock", "", false⟩ } }] }

theorem run_startMissing : ∃ (x : Instance) (m : Member),
    ((takenOver.member 1).agent.executor.process startMissing).run.run Member.step
      (takenOver.member 1) = (.ok x, m) ∧
    ((takenOver.member 1).agent.executor.process startMissing).run.elapsed Member.step
      (takenOver.member 1).pace (takenOver.member 1) = 0 ∧
    .start "mock" ∈ m.engine.calls :=
  ⟨_, _, rfl, by decide +kernel, by decide +kernel⟩

theorem asks_startMissing_takenOver :
    ∃ next : Except Store.Error (Option Store.Entry) → Task (Demand.interface 2) (Result Instance),
      takenOver.layout.asks 0 (fun a => a.schedule startMissing) =
        .ask (.store (.get "/longhorn/hosts/east")) next ∧
      next (.ok (some ⟨Record.text east, 1⟩)) =
        takenOver.layout.relays 1 east eastUrl startMissing := by
  obtain ⟨next, hasks, -, hread⟩ := Layout.asks_schedule_there (l := takenOver.layout) (i := 0)
    leads_pair isPlain_startMissing fits_startMissing (by decide) (by decide) rfl
  exact ⟨next, hasks, hread _ (Store.Space.decode_text east)⟩

/-- No host is the one that the request names, and still the heir starts the container for it, be it
that west is given the request or that it is posted to the heir. -/
theorem started_elsewhere :
    startMissing.target.hostId ≠ "" ∧
    (∀ j, (takenOver.member j).agent.host.uuid ≠ startMissing.target.hostId) ∧
    (∃ x, (takenOver.act 0 fun a => a.schedule startMissing).1 = .ok x) ∧
    .start "mock" ∈ ((takenOver.act 0 fun a => a.schedule startMissing).2.member 1).engine.calls ∧
    (takenOver.serve 1 startMissing.sent).1.status = 200 ∧
    .start "mock" ∈ ((takenOver.serve 1 startMissing.sent).2.member 1).engine.calls := by
  obtain ⟨x, m, hrun, htime, hstarted⟩ := run_startMissing
  obtain ⟨next, hasks, hnext⟩ := asks_startMissing_takenOver
  have hact := act_of_relays hasks hnext step_get_pair
    (Task.run_within_of_le hrun (htime.trans_le (Nat.zero_le _)))
  have hserve : takenOver.serve 1 startMissing.sent =
      (.ofResult (.ok x), takenOver.withMember 1 m) := by
    rw [serve, Api.respond_sent _ _ isPlain_startMissing fits_startMissing, Task.run_map,
      run_stepMember]
    exact hrun ▸ rfl
  refine ⟨by decide, by decide, ?_, ?_, ?_, ?_⟩
  · exact ⟨x, congrArg Prod.fst hact⟩
  · rw [hact, member_withMember]
    exact hstarted
  · rw [hserve]
    rfl
  · rw [hserve, member_withMember]
    exact hstarted

end Cluster

end HostAgent
