import HostAgent.Proofs.Cluster.Passage
import HostAgent.Proofs.Cluster.Registry

namespace HostAgent

/-!
# The placement of requests

A request that names no host is given to one of the hosts that are listed, whichever is picked, and
is dispatched once with that host put in. The record of the host is read again on the way to it, and
it is there, for a store that others register in at the same time as well. A request that names a
host keeps it.
-/

open Store

namespace Scheduler

variable {p : Scheduler} {r : Request} {m m' m'' : Memory} {l : List (Exchange interface)}
variable {result : Result Instance}

/-! ## Exchanges -/

/-- The answer of a store to a call of the scheduler. -/
def storeExchange (c : Store.Call) (a : c.Answer) : Exchange interface := ⟨.store c, a⟩

def listing (p : Scheduler) (m : Memory) : Exchange interface :=
  storeExchange (.list p.space.hostsDir) (m.step (.list p.space.hostsDir)).1

def reading (p : Scheduler) (m : Memory) (uuid : String) : Exchange interface :=
  storeExchange (.get (p.space.hostKey uuid)) (m.step (.get (p.space.hostKey uuid))).1

def choice {k : Nat} (i : Fin (k + 1)) : Exchange interface := ⟨.pick k, i⟩

/-- A request that was given to the executor of this host, with its result. -/
def carried (r : Request) (result : Result Instance) : Exchange interface := ⟨.run r, result⟩

/-- A request that was given to the agent of another host, with its result. -/
def forwarded (h : Host) (r : Request) (result : Result Instance) : Exchange interface :=
  ⟨.forward h r, result⟩

/-- The store answers as a store in memory, in which hosts may register between the calls. What else
is asked has any answer. -/
def Answers (p : Scheduler) : Memory → List (Exchange interface) → Prop
  | _, [] => True
  | m, ⟨.store c, a⟩ :: l =>
    ∃ m', p.space.Registers m m' ∧ a = (m'.step c).1 ∧ p.Answers (m'.step c).2 l
  | m, ⟨.pick _, _⟩ :: l | m, ⟨.run _, _⟩ :: l | m, ⟨.forward _ _, _⟩ :: l => p.Answers m l

/-- What may be asked for a request that names a host: its record, and that the request is carried
out as it was made. -/
def Keeps (p : Scheduler) (r : Request) : Exchange interface → Prop
  | ⟨.store c, _⟩ => c = .get (p.space.hostKey r.target.hostId)
  | ⟨.pick _, _⟩ => False
  | ⟨.run q, _⟩ | ⟨.forward _ q, _⟩ => q = r

/-! ## Dispatches -/

/-- The ways of a request that names a registered host. The store comes from an older one by
registrations when the record is read. -/
inductive Dispatch (p : Scheduler) (r : Request) (m : Memory) :
    List (Exchange interface) → Result Instance → Prop
  | here {result : Result Instance} (hown : r.target.hostId = p.host.uuid) :
      Dispatch p r m [carried r result] result
  | there {m' : Memory} {h : Host} {result : Result Instance}
      (haway : r.target.hostId ≠ p.host.uuid) (hm : p.space.Registers m m')
      (hstored : (p.space.getHost r.target.hostId).run.run Memory.step m' = (.ok (some h), m')) :
      Dispatch p r m [p.reading m' r.target.hostId, forwarded h r result] result

/-- The ways of a request that names no host, in a store in which the hosts are listed. -/
inductive Placement (p : Scheduler) (r : Request) (m : Memory) :
    List (Exchange interface) → Result Instance → Prop
  | nowhere (hnone : ∀ uuid, m.get? (p.space.hostKey uuid) = none) :
      Placement p r m [p.listing m] (.error (.notFound "host" "for placement"))
  | picked {first : Host} {rest : List Host} {l : List (Exchange interface)}
      {result : Result Instance}
      (hlist : p.space.listHosts.run.run Memory.step m = (.ok (first :: rest), m))
      (i : Fin (rest.length + 1))
      (h : Dispatch p (r.placedAt ((first :: rest).get i).uuid) m l result) :
      Placement p r m (p.listing m :: choice i :: l) result

theorem run_getHost (s : Space) (uuid : String) (m : Memory) :
    (s.getHost uuid).run.run Memory.step m = (Space.found (.ok (m.get? (s.hostKey uuid))), m) := by
  rw [Space.getHost_run]
  rfl

theorem run_listHosts (s : Space) (m : Memory) :
    s.listHosts.run.run Memory.step m = (Space.fetchedAll (.ok (m.children s.hostsDir)), m) := by
  rw [Space.listHosts, Space.fetchAll_run]
  rfl

/-! ## Requests that name a host -/

theorem path_here_iff (hown : r.target.hostId = p.host.uuid) :
    Task.Path (p.dispatch r).run l (.done result) ↔ l = [carried r result] := by
  rw [dispatch_here hown]
  refine Task.path_ask_done_iff.trans ?_
  constructor
  · rintro ⟨a, l', rfl, h⟩
    obtain ⟨rfl, hdone⟩ := Task.path_done_iff.mp h
    cases hdone
    rfl
  · rintro rfl
    exact ⟨result, [], rfl, .nil _⟩

/-- A request for another host reads the record of that host first. -/
theorem path_there_iff (haway : r.target.hostId ≠ p.host.uuid) :
    Task.Path (p.dispatch r).run l (.done result) ↔
      ∃ a l', l = storeExchange (.get (p.space.hostKey r.target.hostId)) a :: l' ∧
        Task.Path (p.routed r a) l' (.done result) := by
  rw [dispatch_there haway]
  exact Task.path_ask_done_iff

theorem path_routed_iff {h : Host} {a : Except Store.Error (Option Entry)}
    (hstored : Space.found a = .ok (some h)) :
    Task.Path (p.routed r a) l (.done result) ↔ l = [forwarded h r result] := by
  rw [routed, hstored]
  refine Task.path_ask_done_iff.trans ?_
  constructor
  · rintro ⟨a, l', rfl, h⟩
    obtain ⟨rfl, hdone⟩ := Task.path_done_iff.mp h
    cases hdone
    rfl
  · rintro rfl
    exact ⟨result, [], rfl, .nil _⟩

/-- A request for a registered host is dispatched, whatever is registered meanwhile. -/
theorem dispatch_iff {hosts : SortedMap Host} (hm : p.space.Registry m hosts)
    (hregistered : (hosts.get? r.target.hostId).isSome = true) :
    Task.Path (p.dispatch r).run l (.done result) ∧ p.Answers m l ↔ Dispatch p r m l result := by
  by_cases hown : r.target.hostId = p.host.uuid
  · rw [path_here_iff hown]
    constructor
    · rintro ⟨rfl, -⟩
      exact .here hown
    · intro h
      cases h with
      | here _ => exact ⟨rfl, trivial⟩
      | there haway _ _ => exact absurd hown haway
  rw [path_there_iff hown]
  constructor
  · rintro ⟨⟨a, l', rfl, hpath⟩, m', hlater, rfl, -⟩
    obtain ⟨hosts', hm', hkept⟩ := hm.registers hlater
    obtain ⟨h, hh⟩ := Option.isSome_iff_exists.mp (hkept _ hregistered)
    have hstored : Space.found (.ok (m'.get? (p.space.hostKey r.target.hostId))) =
        .ok (some h) := by
      rw [hm'.found, hh]
    obtain rfl := (path_routed_iff hstored).mp hpath
    refine .there hown hlater ?_
    rw [run_getHost, hstored]
  · intro h
    cases h with
    | here h => exact absurd h hown
    | @there m' h _ _ hlater hstored =>
      rw [run_getHost] at hstored
      exact ⟨⟨_, _, rfl, (path_routed_iff (congrArg Prod.fst hstored)).mpr rfl⟩,
        m', hlater, rfl, trivial⟩

theorem keeps_of_path_routed {a : Except Store.Error (Option Entry)}
    {d : Task interface (Result Instance)} (h : Task.Path (p.routed r a) l d) :
    ∀ x ∈ l, p.Keeps r x := by
  unfold routed at h
  split at h
  · obtain ⟨rfl, -⟩ := Task.path_done_iff.mp h
    exact List.forall_mem_nil _
  · obtain ⟨rfl, -⟩ := Task.path_done_iff.mp h
    exact List.forall_mem_nil _
  next host _ =>
    rcases Task.path_one_iff.mp h with ⟨rfl, -⟩ | ⟨b, rfl, -⟩
    · exact List.forall_mem_nil _
    · exact List.forall_mem_singleton.mpr rfl

theorem keeps_of_path {d : Task interface (Result Instance)}
    (h : Task.Path (p.dispatch r).run l d) : ∀ x ∈ l, p.Keeps r x := by
  by_cases hown : r.target.hostId = p.host.uuid
  · rw [dispatch_here hown] at h
    rcases Task.path_one_iff.mp h with ⟨rfl, -⟩ | ⟨b, rfl, -⟩
    · exact List.forall_mem_nil _
    · exact List.forall_mem_singleton.mpr rfl
  · rw [dispatch_there hown] at h
    rcases Task.path_ask_iff.mp h with ⟨rfl, -⟩ | ⟨a, l', rfl, hrouted⟩
    · exact List.forall_mem_nil _
    · exact List.forall_mem_cons.mpr ⟨rfl, keeps_of_path_routed hrouted⟩

/-! ## Requests that name none -/

/-- A request that names no host lists the hosts first. -/
theorem path_unnamed_iff (hempty : r.target.hostId = "") :
    Task.Path (p.schedule r).run l (.done result) ↔
      ∃ a l', l = storeExchange (.list p.space.hostsDir) a :: l' ∧
        Task.Path (p.placed r a) l' (.done result) := by
  rw [schedule_placed hempty]
  exact Task.path_ask_done_iff

theorem path_nowhere_iff {a : Except Store.Error (List (String × Entry))}
    (hlisted : Space.fetchedAll (α := Host) a = .ok []) :
    Task.Path (p.placed r a) l (.done result) ↔
      l = [] ∧ result = .error (.notFound "host" "for placement") := by
  rw [placed, hlisted, Task.path_done_iff, Task.done.injEq]

theorem path_picked_iff {a : Except Store.Error (List (String × Entry))} {first : Host}
    {rest : List Host} (hlisted : Space.fetchedAll a = .ok (first :: rest)) :
    Task.Path (p.placed r a) l (.done result) ↔
      ∃ (i : Fin (rest.length + 1)) (l' : _), l = choice i :: l' ∧
        Task.Path (p.dispatch (r.placedAt ((first :: rest).get i).uuid)).run l' (.done result) := by
  rw [placed, hlisted]
  exact Task.path_ask_done_iff

/-- Once the hosts are listed, the request is dispatched to one of them, if there is any. -/
theorem placement_iff {hosts : SortedMap Host} (hm : p.space.Registry m hosts) :
    (∃ l', l = p.listing m :: l' ∧
        Task.Path (p.placed r (.ok (m.children p.space.hostsDir))) l' (.done result) ∧
        p.Answers m l') ↔ Placement p r m l result := by
  have hlist := run_listHosts p.space m
  rw [hm.listed] at hlist
  have hlisted := hm.listed
  cases hvalues : hosts.values with
  | nil =>
    rw [hvalues] at hlist hlisted
    have hnone : ∀ uuid, m.get? (p.space.hostKey uuid) = none := fun uuid =>
      (hm.get?_eq_none_iff uuid).mpr (SortedMap.get?_eq_none_of_values hvalues uuid)
    constructor
    · rintro ⟨l', rfl, hpath, -⟩
      obtain ⟨rfl, rfl⟩ := (path_nowhere_iff hlisted).mp hpath
      exact .nowhere hnone
    · intro h
      cases h with
      | nowhere _ => exact ⟨[], rfl, (path_nowhere_iff hlisted).mpr ⟨rfl, rfl⟩, trivial⟩
      | picked hlist' _ _ =>
        rw [hlist] at hlist'
        cases hlist'
  | cons first rest =>
    rw [hvalues] at hlist hlisted
    have hregistered : ∀ i : Fin (rest.length + 1),
        (hosts.get? (r.placedAt ((first :: rest).get i).uuid).target.hostId).isSome = true := by
      intro i
      have hmem : (first :: rest).get i ∈ hosts.values := by
        rw [hvalues]
        exact List.get_mem (first :: rest) i
      exact Option.isSome_iff_exists.mpr ⟨_, hm.get?_of_listed hmem⟩
    constructor
    · rintro ⟨l', rfl, hpath, hanswers⟩
      obtain ⟨i, l'', rfl, hdispatch⟩ := (path_picked_iff hlisted).mp hpath
      exact .picked hlist i ((dispatch_iff hm (hregistered i)).mp ⟨hdispatch, hanswers⟩)
    · intro h
      cases h with
      | nowhere hnone =>
        have hfirst := hregistered 0
        rw [(hm.get?_eq_none_iff _).mp (hnone _)] at hfirst
        cases hfirst
      | @picked first' rest' l' _ hlist' i h =>
        rw [hlist] at hlist'
        cases hlist'
        obtain ⟨hpath, hanswers⟩ := (dispatch_iff hm (hregistered i)).mpr h
        exact ⟨choice i :: l', rfl, (path_picked_iff hlisted).mpr ⟨i, l', rfl, hpath⟩, hanswers⟩

/-- A request that names no host is dispatched once, as it was made but for the host, to any host
that is picked from those that are listed: to the executor of this host if it is the picked one, and
else to the agent of the host whose record is stored under the picked identifier. It is not found
where no host is registered, and nothing else keeps it from its dispatch, though hosts register at
all times. A request that names a host is never given to another one. -/
theorem placed_on_registered_hosts (hm : p.space.Registers .empty m) (r : Request) :
    (r.target.hostId = "" → ∀ l result,
      Task.Path (p.schedule r).run l (.done result) ∧ p.Answers m l ↔
        ∃ m', p.space.Registers m m' ∧ Placement p r m' l result) ∧
    (r.target.hostId ≠ "" → ∀ l d, Task.Path (p.schedule r).run l d → ∀ x ∈ l, p.Keeps r x) := by
  refine ⟨fun hempty l result => ?_, fun hnamed l d h => ?_⟩
  · rw [path_unnamed_iff hempty]
    constructor
    · rintro ⟨⟨a, l', rfl, hpath⟩, m', hlater, rfl, hanswers⟩
      obtain ⟨hosts, hregistry⟩ := Space.Registry.of_registers (hm.trans hlater)
      exact ⟨m', hlater, (placement_iff hregistry).mp ⟨l', rfl, hpath, hanswers⟩⟩
    · rintro ⟨m', hlater, h⟩
      obtain ⟨hosts, hregistry⟩ := Space.Registry.of_registers (hm.trans hlater)
      obtain ⟨l', rfl, hpath, hanswers⟩ := (placement_iff hregistry).mpr h
      exact ⟨⟨_, l', rfl, hpath⟩, m', hlater, rfl, hanswers⟩
  · rw [schedule_named hnamed] at h
    exact keeps_of_path h

/-! ### Two hosts -/

def westScheduler : Scheduler := ⟨Cluster.west, ⟨"/longhorn"⟩⟩

/-- A store in which west was registered, and then east. -/
def bothRegistered : Memory :=
  let m := (westScheduler.space.setHost Cluster.west).run.run Memory.step .empty
  ((westScheduler.space.setHost Cluster.east).run.run Memory.step m.2).2

theorem registers_bothRegistered : westScheduler.space.Registers .empty bothRegistered :=
  (Space.Registers.refl.setHost Cluster.west (by decide)).setHost Cluster.east (by decide)

theorem registry_bothRegistered : westScheduler.space.Registry bothRegistered
    ((SortedMap.empty.insert "west" Cluster.west).insert "east" Cluster.east) :=
  ((Space.Registry.empty _).write (by decide)).write (by decide)

def startAnywhere : Request := ⟨.startInstance, ⟨"mock", .controller, ""⟩, .empty "docker"⟩

/-- West has the request carried out by east, which is picked. -/
theorem placed_on_registered_hosts_east :
    westScheduler.space.Registers .empty bothRegistered ∧ startAnywhere.target.hostId = "" ∧
      ∀ result : Result Instance,
        let l := [westScheduler.listing bothRegistered, choice (0 : Fin 2),
          westScheduler.reading bothRegistered "east",
          forwarded Cluster.east (startAnywhere.placedAt "east") result]
        Task.Path (westScheduler.schedule startAnywhere).run l (.done result) ∧
          westScheduler.Answers bothRegistered l := by
  refine ⟨registers_bothRegistered, rfl, fun result => ?_⟩
  have hlist : westScheduler.space.listHosts.run.run Memory.step bothRegistered =
      (.ok [Cluster.east, Cluster.west], bothRegistered) := by
    rw [run_listHosts, registry_bothRegistered.listed]
    rfl
  have hstored : (westScheduler.space.getHost "east").run.run Memory.step bothRegistered =
      (.ok (some Cluster.east), bothRegistered) := by
    rw [run_getHost, registry_bothRegistered.found]
    rfl
  have hdispatch : Dispatch westScheduler (startAnywhere.placedAt "east") bothRegistered
      [westScheduler.reading bothRegistered "east",
        forwarded Cluster.east (startAnywhere.placedAt "east") result] result :=
    .there (by decide) .refl hstored
  have hplaced := Placement.picked hlist 0 hdispatch
  exact ((placed_on_registered_hosts registers_bothRegistered startAnywhere).1 rfl _ _).mpr
    ⟨bothRegistered, .refl, hplaced⟩

end Scheduler

end HostAgent
