import HostAgent.Proofs.Agent.Atomic
import HostAgent.Proofs.Cluster.Identities
import HostAgent.Proofs.Record.Kept
import HostAgent.Proofs.Store.Writers

namespace HostAgent

/-!
# Where the hosts of a cluster listen

Hosts register side by side, and then agents work on the same store. What an agent does, other than
registering, never touches the record of a host, so that every agent finds each host at the address
that it registered with, and nobody else. What an agent knows of its own host without asking is
what it would find.
-/

open Store Interleaving

/-! ## Registrations side by side -/

namespace Identity

/-- What a host registers with: the directory of its file, and the address of its agent. -/
structure Applicant where
  dir : String
  address : String
  deriving Inhabited

def registering {ι : Type} (s : Space) (who : ι → Applicant) (m : Memory) :
    Situation Memory.shared interface ι (Result Host) :=
  ⟨m, fun i => (register s (who i).dir (who i).address).run.swap⟩

/-- What follows once a host knows who it is. -/
def publish (s : Space) : Except IdentityError Host →
    Task (Store.interface.sum interface) (Result Host)
  | .error e => .done (.error (.identity e))
  | .ok x => .ask (.inl (.set (s.hostKey x.uuid) (Record.text x))) fun a =>
      .done (((Space.dropIndex a).mapError (.store "register" (s.hostKey x.uuid))).map fun _ => x)

theorem register_swap (s : Space) (dir address : String) :
    (register s dir address).run.swap = (load dir address).run.inr.bind (publish s) := by
  rw [register_run, Task.swap_bind, Task.swap_inl]
  refine congrArg _ (funext fun r => ?_)
  rcases r with e | x <;> rfl

theorem address_of_load {dir address : String} {l : List (Exchange interface)} {x : Host}
    (h : Task.Path (load dir address).run l (.done (.ok x))) : x.address = address := by
  rw [load_run] at h
  obtain ⟨l₁, l₂, r, -, -, h₂⟩ := Task.path_bind_done_iff.mp h
  rcases r with e | uuid
  · cases (Task.path_done_iff.mp h₂).2
  · obtain ⟨a, l', -, hdone⟩ := Task.path_ask_done_iff.mp h₂
    rcases a with e | name
    · cases (Task.path_done_iff.mp hdone).2
    · cases (Task.path_done_iff.mp hdone).2
      rfl

/-- The one exchange by which a host registers. -/
def announcement (s : Space) (x : Host) (n : Nat) : Exchange (Store.interface.sum interface) :=
  ⟨.inl (.set (s.hostKey x.uuid) (Record.text x)), .ok n⟩

/-- How far a registration of a host can have come: it has not written and not succeeded, or it has
just announced the host and is done. -/
theorem path_register {s : Space} {dir address : String}
    {l : List (Exchange (Store.interface.sum interface))}
    {u : Task (Store.interface.sum interface) (Result Host)}
    (h : Task.Path (register s dir address).run.swap l u) :
    (Unwritten l ∧ ∀ x, u ≠ .done (.ok x)) ∨
      ∃ p x n, l = p ++ [announcement s x n] ∧ Unwritten p ∧ x.address = address ∧
        u = .done (.ok x) := by
  rw [register_swap] at h
  have hload : NeverWrites ((load dir address).run.inr : Task (Store.interface.sum interface) _) :=
    neverWrites_inr _
  rcases h.of_bind with ⟨c, next, rfl, hpath⟩ | ⟨l₁, l₂, r, rfl, h₁, h₂⟩
  · exact .inl ⟨hload _ _ hpath, by rintro _ ⟨⟩⟩
  · rcases r with e | x
    · obtain ⟨rfl, rfl⟩ := Task.path_done_iff.mp h₂
      exact .inl ⟨(hload _ _ h₁).append (by simp [Unwritten]), by rintro _ ⟨⟩⟩
    · obtain ⟨l', u', -, hu', hpath⟩ := h₁.of_inr
      cases Task.inr_eq_done hu'.symm
      rcases Task.path_one_iff.mp h₂ with ⟨rfl, rfl⟩ | ⟨a, rfl, rfl⟩
      · exact .inl ⟨(hload _ _ h₁).append (by simp [Unwritten]), by rintro _ ⟨⟩⟩
      · rcases a with e | n
        · exact .inl ⟨(hload _ _ h₁).append (by simp [Unwritten, written?, Call.written?]),
            by rintro _ ⟨⟩⟩
        · exact .inr ⟨l₁, x, n, rfl, hload _ _ h₁, address_of_load hpath, rfl⟩

section Registering

variable {ι : Type} [DecidableEq ι] {s : Space} {who : ι → Applicant} {m : Memory}
variable {tr : List (Moment Memory.shared interface ι)} {i : ι} {x : Host}
variable {t : Situation Memory.shared interface ι (Result Host)}

def Announces (s : Space) (tr : List (Moment Memory.shared interface ι)) (x : Host) (i : ι) :
    Prop :=
  ∃ n, announcement s x n ∈ exchanges i tr

/-- The hosts that were announced have their records in the store, and no other host has one. -/
structure Announced (s : Space) (tr : List (Moment Memory.shared interface ι)) (m : Memory)
    (hosts : SortedMap Host) : Prop where
  stores : m.Stores s.hostKey hosts
  origin : ∀ u x, hosts.get? u = some x → x.uuid = u ∧ ∃ i, Announces s tr x i
  complete : ∀ i x, Announces s tr x i → (hosts.get? x.uuid).isSome = true

theorem announces_concat {mo : Moment Memory.shared interface ι} :
    Announces s (tr ++ [mo]) x i ↔
      Announces s tr x i ∨ ∃ n, mo.act = .exchange i (announcement s x n) := by
  simp only [Announces, exchanges_concat, List.mem_append, Option.mem_toList, Act.of?_eq_some_iff,
    exists_or]

theorem Announced.pass {mo : Moment Memory.shared interface ι} {hosts : SortedMap Host}
    (h : Announced s tr m hosts) (hmo : ∀ i x n, mo.act ≠ .exchange i (announcement s x n)) :
    Announced s (tr ++ [mo]) m hosts where
  stores := h.stores
  origin u x hx := by
    obtain ⟨huuid, i, hi⟩ := h.origin u x hx
    exact ⟨huuid, i, announces_concat.mpr (.inl hi)⟩
  complete i x hx := by
    rcases announces_concat.mp hx with hx | ⟨n, hn⟩
    · exact h.complete i x hx
    · exact absurd hn (hmo i x n)

theorem Announced.announce {mo : Moment Memory.shared interface ι} {hosts : SortedMap Host}
    {y : Host} {n : Nat} (h : Announced s tr m hosts)
    (hmo : mo.act = .exchange i (announcement s y n)) :
    Announced s (tr ++ [mo]) (m.write (s.hostKey y.uuid) (Record.text y))
      (hosts.insert y.uuid y) where
  stores := h.stores.write s.hostKey_injective y.uuid y
  origin u x hx := by
    rw [SortedMap.get?_insert] at hx
    split at hx
    next hu =>
      cases hx
      exact ⟨hu.symm, i, announces_concat.mpr (.inr ⟨n, hmo⟩)⟩
    next =>
      obtain ⟨huuid, j, hj⟩ := h.origin u x hx
      exact ⟨huuid, j, announces_concat.mpr (.inl hj)⟩
  complete j x hx := by
    rw [SortedMap.get?_insert]
    split
    next => rfl
    next hne =>
      rcases announces_concat.mp hx with hx | ⟨k, hk⟩
      · exact h.complete j x hx
      · have hwritten : written? (announcement s y n) = written? (announcement s x k) :=
          congrArg written? (Act.exchange.inj (hmo.symm.trans hk)).2
        exact absurd (s.hostKey_injective (Option.some.inj hwritten)).symm hne

theorem announced_of_run (hm : ∀ u, m.get? (s.hostKey u) = none)
    (h : Run (registering s who m) tr t) : ∃ hosts, Announced s tr t.state hosts := by
  induction h with
  | nil =>
    refine ⟨.empty, fun u => congrArg (Option.map Entry.value) (hm u), nofun, ?_⟩
    rintro i x ⟨n, hn⟩
    cases hn
  | @concat tr mo t u h hs ih =>
    obtain ⟨hosts, hannounced⟩ := ih
    by_cases hmo : ∃ i y n, mo.act = .exchange i (announcement s y n)
    · obtain ⟨i, y, n, hact⟩ := hmo
      have hanswer := hs.answer_eq hact
      rw [hs.before_eq, hs.after_eq] at hanswer
      have hstate : t.state.write (s.hostKey y.uuid) (Record.text y) = u.state :=
        congrArg Prod.snd hanswer
      rw [← hstate]
      exact ⟨_, hannounced.announce hact⟩
    · have hnone : ∀ i x, mo.act = .exchange i x → written? x = none := by
        intro i x hact
        rcases path_register (path_concat h hs hact) with ⟨hl, -⟩ | ⟨p, y, n, hl, -, -, -⟩
        · exact hl x (by simp)
        · cases (List.append_inj' hl rfl).2
          exact absurd ⟨i, y, n, hact⟩ hmo
      rw [state_of_unwritten hs hnone]
      exact ⟨hosts, hannounced.pass fun i x n hact => hmo ⟨i, x, n, hact⟩⟩

/-- Hosts registered side by side in a store that had none, and no two of them have one identifier.
Some may not be through yet, and some may have failed. -/
structure Enrolled (s : Space) (who : ι → Applicant)
    (t : Situation Memory.shared interface ι (Result Host)) : Prop where
  run : ∃ m tr, (∀ u, m.get? (s.hostKey u) = none) ∧ Run (registering s who m) tr t
  distinct : ∀ i j x y, t.tasks i = .done (.ok x) → t.tasks j = .done (.ok y) →
    x.uuid = y.uuid → i = j

/-- A host that has registered with success. -/
def IsMember (t : Situation Memory.shared interface ι (Result Host)) (x : Host) : Prop :=
  ∃ i, t.tasks i = .done (.ok x)

theorem announces_iff (h : Run (registering s who m) tr t) :
    Announces s tr x i ↔ t.tasks i = .done (.ok x) := by
  constructor
  · rintro ⟨n, hn⟩
    rcases path_register (h.path i) with ⟨hl, -⟩ | ⟨p, y, k, hl, hp, -, hdone⟩
    · cases hl _ hn
    · rw [hl, List.mem_append, List.mem_singleton] at hn
      rcases hn with hn | hn
      · cases hp _ hn
      · have hcall : (Store.Call.set (s.hostKey x.uuid) (Record.text x)) =
            .set (s.hostKey y.uuid) (Record.text y) :=
          Sum.inl.inj (congrArg Sigma.fst hn)
        rw [hdone, Record.text_injective (Store.Call.set.inj hcall).2]
  · intro hdone
    rcases path_register (h.path i) with ⟨-, hne⟩ | ⟨p, y, k, hl, -, -, hy⟩
    · exact absurd hdone (hne x)
    · cases hdone.symm.trans hy
      exact ⟨k, by rw [hl]; simp⟩

theorem address_of_done (h : Run (registering s who m) tr t) (hdone : t.tasks i = .done (.ok x)) :
    x.address = (who i).address := by
  rcases path_register (h.path i) with ⟨-, hne⟩ | ⟨p, y, k, -, -, haddress, hy⟩
  · exact absurd hdone (hne x)
  · cases hdone.symm.trans hy
    exact haddress

theorem Enrolled.eq_of_uuid (h : Enrolled s who t) {y : Host} (hx : IsMember t x)
    (hy : IsMember t y) (heq : x.uuid = y.uuid) : x = y := by
  obtain ⟨i, hi⟩ := hx
  obtain ⟨j, hj⟩ := hy
  cases h.distinct i j x y hi hj heq
  cases hi.symm.trans hj
  rfl

/-- The store has the records of the members under their identifiers, and no other record of a
host. -/
structure Lists (s : Space) (t : Situation Memory.shared interface ι (Result Host)) (m : Memory)
    (hosts : SortedMap Host) : Prop where
  stores : m.Stores s.hostKey hosts
  get?_iff : ∀ u x, hosts.get? u = some x ↔ IsMember t x ∧ x.uuid = u

theorem Enrolled.lists (h : Enrolled s who t) : ∃ hosts, Lists s t t.state hosts := by
  obtain ⟨m, tr, hm, hrun⟩ := h.run
  obtain ⟨hosts, hstores, horigin, hcomplete⟩ := announced_of_run hm hrun
  refine ⟨hosts, hstores, fun u x => ⟨fun hx => ?_, ?_⟩⟩
  · obtain ⟨huuid, i, hi⟩ := horigin u x hx
    exact ⟨⟨i, (announces_iff hrun).mp hi⟩, huuid⟩
  · rintro ⟨⟨i, hi⟩, rfl⟩
    obtain ⟨y, hy⟩ := Option.isSome_iff_exists.mp
      (hcomplete i x ((announces_iff hrun).mpr hi))
    obtain ⟨huuid, j, hj⟩ := horigin _ y hy
    rw [hy, h.eq_of_uuid ⟨j, (announces_iff hrun).mp hj⟩ ⟨i, hi⟩ huuid]

/-- What is left of finding out a host when it is known which identifier it has. -/
def described (address : String) :
    Except IdentityError String → Task interface (Except IdentityError Host)
  | .error e => .done (.error e)
  | .ok uuid => .ask (I := interface) .hostname fun
    | .ok name => .done (.ok ⟨uuid, Text.Utf8.decodeLossy name, address⟩)
    | .error e => .done (.error (.hostname e))

/-- A host whose file has an identifier can register at any time, without a rest for others in
between. -/
theorem exists_run_register {dir address uuid : String} (name : String) (huuid : IsIdentity uuid)
    (hi : t.tasks i = (register s dir address).run.swap) :
    ∃ tr u, Run t tr u ∧ u.tasks i = .done (.ok ⟨uuid, name, address⟩) ∧
      ∀ j, j ≠ i → u.tasks j = t.tasks j := by
  have hread : t.tasks i = .ask (.inr (.read (FilePath.join dir fileName))) fun a =>
      ((afterRead dir (FilePath.join dir fileName) a).run.bind (described address)).inr.bind
        (publish s) := by
    rw [hi, register_swap, load_run, loadUuid_run]
    rfl
  obtain ⟨u₁, h₁, -, hnext₁, hothers₁⟩ :=
    Run.nil.exists_own hread (.ok (Text.Utf8.encode uuid) : Except Errno (List UInt8))
  rw [afterRead, ofOctets_encode huuid] at hnext₁
  obtain ⟨u₂, h₂, -, hnext₂, hothers₂⟩ :=
    h₁.exists_own (c := .hostname) hnext₁ (.ok (Text.Utf8.encode name) : Except Errno (List UInt8))
  obtain ⟨u₃, h₃, -, hnext₃, hothers₃⟩ := h₂.exists_shared hnext₂ rfl
  refine ⟨_, u₃, h₃, ?_, fun j hj => ?_⟩
  · rw [hnext₃, Text.Utf8.decodeLossy_encode]
    rfl
  · rw [hothers₃ j hj, hothers₂ j hj, hothers₁ j hj]

end Registering

end Identity

/-! ## Agents at work -/

namespace Agent

open Identity (Applicant Enrolled IsMember)

/-- What an agent may be asked for once its host has registered. -/
inductive Duty where
  | record (o : Operation)
  | service (s : Service)

structure Assignment where
  agent : Agent
  duty : Duty

def Assignment.task (w : Assignment) : Task (Store.interface.sum own) Unit :=
  match w.duty with
  | .record o => (beside (o.op w.agent).run).bind fun _ => .done ()
  | .service s => (beside (s.op w.agent).run).bind fun _ => .done ()

def serving {κ : Type} (work : κ → Assignment) (m : Memory) : Situation Memory.shared own κ Unit :=
  ⟨m, fun k => (work k).task⟩

theorem key?_ne_hostKey {a : Agent} {o : Operation} {key : String} (h : o.key? a = some key)
    (id : String) : key ≠ a.space.hostKey id := by
  cases o with
  | createVolume v | updateVolume v | deleteVolume name | markBadReplica volume replica =>
    cases h
    exact Space.hostKey_ne_volumeKey.symm
  | setSettings settings =>
    cases h
    exact Space.hostKey_ne_settingsKey.symm
  | getHost id | listHosts | getVolume name | listVolumes | getSettings => cases h

/-- Nothing that an agent does writes the record of a host. -/
theorem spares_hosts {w : Assignment} {l : List (Exchange (Store.interface.sum own))}
    {u : Task (Store.interface.sum own) Unit} (h : Task.Path w.task l u) (id : String) :
    ∀ y ∈ l, written? y ≠ some (w.agent.space.hostKey id) := by
  rcases w with ⟨a, o | s⟩
  · obtain ⟨v, -, hpath⟩ := Task.Path.of_map h
    rcases writesLast_operation a o _ _ hpath with hl | ⟨p, x, b, key, rfl, hp, hx, hkey, -⟩
    · intro y hy
      rw [hl y hy]
      nofun
    · intro y hy
      rcases List.mem_append.mp hy with hy | hy
      · rw [hp y hy]
        nofun
      · rw [List.mem_singleton.mp hy, hx]
        exact fun heq => key?_ne_hostKey hkey id (Option.some.inj heq)
  · intro y hy
    rw [(neverWrites_beside (asks_service a s)).map (fun _ => ()) _ _ h y hy]
    nofun

section Serving

variable {κ : Type} [DecidableEq κ] {s : Space} {work : κ → Assignment} {m : Memory}
variable {tr : List (Moment Memory.shared own κ)} {t : Situation Memory.shared own κ Unit}

theorem get?_hostKey_of_run (hspace : ∀ k, (work k).agent.space = s)
    (h : Run (serving work m) tr t) (id : String) :
    Memory.get? t.state (s.hostKey id) = m.get? (s.hostKey id) := by
  induction h with
  | nil => rfl
  | @concat tr mo t u h hs ih =>
    rw [← ih]
    refine get?_of_writer?_eq_none hs (Option.eq_none_iff_forall_ne_some.mpr fun k hk => ?_)
    obtain ⟨x, hact, hwritten⟩ := writer?_eq_some_iff.mp hk
    have hspared := spares_hosts (w := work k) (path_concat h hs hact) id x (by simp)
    rw [hspace k] at hspared
    exact hspared hwritten

end Serving

/-! ## Looking up -/

section Lookups

variable {a : Agent} {m : Memory} {hosts : SortedMap Host} (others : (c : Call) → c.Answer)

theorem run_getHost (h : m.Stores a.space.hostKey hosts) (id : String) :
    (a.getHost id).run.run (stepInMemory others) m = (.ok (hosts.get? id), m) := by
  rw [getHost, run_ask, Space.getHost, Space.run_fetch_map, Space.found_of_map (h id)]
  rfl

theorem run_getAddress (h : m.Stores a.space.hostKey hosts) {id : String}
    (hid : id ≠ a.host.uuid) :
    (a.getAddress id).run.run (stepInMemory others) m =
      (match hosts.get? id with
        | some x => .ok x.address
        | none => .error (.notFound "host" id), m) := by
  rw [getAddress, if_neg hid, Task.run_bind_of_ok (run_getHost others h id)]
  cases hosts.get? id <;> rfl

theorem run_listHosts (h : m.Stores a.space.hostKey hosts)
    (hnamed : ∀ u x, hosts.get? u = some x → x.uuid = u) :
    a.listHosts.run.run (stepInMemory others) m = (.ok hosts.direct, m) := by
  have hchildren : Space.fetchedAll (.ok (m.children a.space.hostsDir)) =
      .ok hosts.direct.values := by
    apply Memory.Stores.fetchedAll_children
    rw [Space.below_hostsDir]
    exact h
  have hrun : (ask "list" "hosts" a.space.listHosts).run.run (stepInMemory others) m =
      (.ok hosts.direct.values, m) := by
    rw [run_ask, Space.listHosts, Space.run_fetchAll, hchildren]
    rfl
  rw [listHosts, Task.run_bind_of_ok hrun]
  change (Except.ok (SortedMap.ofList _), m) = _
  rw [ofList_direct_hosts hnamed]

end Lookups

/-- What an agent finds out about hosts in a store: the address that each of the members registered
with, its own one without a call, although its record is there as well, nothing about anybody else,
and in a listing each member that can be listed, once. -/
structure Knows {ι : Type} (who : ι → Applicant)
    (t : Situation Memory.shared Identity.interface ι (Result Host)) (a : Agent) (m : Memory)
    (others : (c : Call) → c.Answer) : Prop where
  registered : ∀ i x, t.tasks i = .done (.ok x) →
    (a.getAddress x.uuid).run.run (stepInMemory others) m = (.ok (who i).address, m)
  own : (a.getAddress a.host.uuid).run = .done (.ok a.host.address)
  stored : (a.getHost a.host.uuid).run.run (stepInMemory others) m = (.ok (some a.host), m)
  unregistered : ∀ u, (∀ x, IsMember t x → x.uuid ≠ u) →
    (a.getAddress u).run.run (stepInMemory others) m = (.error (.notFound "host" u), m)
  listed : ∃ l, a.listHosts.run.run (stepInMemory others) m = (.ok l, m) ∧
    ∀ u x, l.get? u = some x ↔ IsMember t x ∧ x.uuid = u ∧ '/' ∉ u.toList

section Cluster

variable {ι κ : Type} [DecidableEq ι] [DecidableEq κ] {s : Space} {who : ι → Applicant}
variable {t : Situation Memory.shared Identity.interface ι (Result Host)} {work : κ → Assignment}
variable {tr : List (Moment Memory.shared own κ)} {u : Situation Memory.shared own κ Unit}
variable {a : Agent}

/-- Whatever agents have done side by side since their hosts registered, each of them knows where
every host listens. -/
theorem members_find_each_other (ht : Enrolled s who t) (hwork : ∀ k, (work k).agent.space = s)
    (h : Run (serving work t.state) tr u) (hspace : a.space = s) (ha : IsMember t a.host)
    (others : (c : Call) → c.Answer) : Knows who t a u.state others := by
  obtain ⟨m, tr₀, hm, hregistering⟩ := ht.run
  obtain ⟨hosts, hstores, hget⟩ := ht.lists
  have hkept : Memory.Stores u.state a.space.hostKey hosts := by
    intro id
    rw [hspace, get?_hostKey_of_run hwork h]
    exact hstores id
  have hown : (a.getAddress a.host.uuid).run = .done (.ok a.host.address) := by
    rw [getAddress, if_pos rfl]
    rfl
  refine ⟨fun i x hx => ?_, hown, ?_, fun id hid => ?_, hosts.direct, ?_, fun id x => ?_⟩
  · rw [← Identity.address_of_done hregistering hx]
    by_cases heq : x.uuid = a.host.uuid
    · rw [ht.eq_of_uuid ⟨i, hx⟩ ha heq, hown]
      rfl
    · rw [run_getAddress others hkept heq, (hget _ _).mpr ⟨⟨i, hx⟩, rfl⟩]
  · rw [run_getHost others hkept, (hget _ _).mpr ⟨ha, rfl⟩]
  · have hnone : hosts.get? id = none :=
      Option.eq_none_iff_forall_ne_some.mpr fun x hx =>
        hid x ((hget id x).mp hx).1 ((hget id x).mp hx).2
    rw [run_getAddress others hkept (hid _ ha).symm, hnone]
  · exact run_listHosts others hkept fun id x hx => ((hget id x).mp hx).2
  · rw [SortedMap.get?_eq_some_iff, SortedMap.mem_direct, hget, and_assoc]

end Cluster

def pair (second : Bool) : Applicant :=
  ⟨"/etc/longhorn", if second then "10.0.0.2:9500" else "10.0.0.1:9500"⟩

def ofPair (second : Bool) : Host :=
  if second then ⟨"h2", "node-2", "10.0.0.2:9500"⟩ else ⟨"h1", "node-1", "10.0.0.1:9500"⟩

theorem exists_enrolled_pair (s : Space) :
    ∃ t, Enrolled s pair t ∧ ∀ b, t.tasks b = .done (.ok (ofPair b)) := by
  have hidentity : ∀ uuid ∈ ["h1", "h2"], Identity.IsIdentity uuid := by
    intro uuid huuid
    simp only [List.mem_cons, List.not_mem_nil, or_false] at huuid
    rcases huuid with rfl | rfl
    all_goals
      refine ⟨by decide, fun c hc => ?_, fun c hc => ?_⟩
      all_goals
        simp at hc
        subst hc
        decide
  have hbegin : ∀ b, (Identity.registering s pair .empty).tasks b =
      (Identity.register s (pair b).dir (pair b).address).run.swap := fun _ => rfl
  obtain ⟨tr₁, t₁, hrun₁, hdone₁, hothers₁⟩ :=
    Identity.exists_run_register "node-1" (hidentity "h1" (by simp)) (hbegin false)
  obtain ⟨tr₂, t₂, hrun₂, hdone₂, hothers₂⟩ :=
    Identity.exists_run_register "node-2" (hidentity "h2" (by simp))
      ((hothers₁ true nofun).trans (hbegin true))
  have hdone : ∀ b, t₂.tasks b = .done (.ok (ofPair b)) := by
    rintro (_ | _)
    · exact (hothers₂ false nofun).trans hdone₁
    · exact hdone₂
  refine ⟨t₂, ⟨⟨.empty, _, fun _ => rfl, hrun₁.append hrun₂⟩, fun b c x y hx hy huuid => ?_⟩, hdone⟩
  cases (hdone b).symm.trans hx
  cases (hdone c).symm.trans hy
  revert huuid
  cases b <;> cases c <;> decide

def ofFirst : Agent := ⟨ofPair false, ⟨"/longhorn"⟩, default, "longhornio/engine:v1"⟩

/-- Two hosts register, and then the agent of the first one is through with creating a volume. -/
theorem members_find_each_other_pair :
    ∃ (t : Situation Memory.shared Identity.interface Bool (Result Host))
      (u : Situation Memory.shared own Unit Unit),
      Enrolled ofFirst.space pair t ∧ (∃ a, u.tasks () = .done a) ∧ IsMember t (ofPair true) ∧
        ∀ others, Knows pair t ofFirst u.state others := by
  obtain ⟨t, ht, hdone⟩ := exists_enrolled_pair ofFirst.space
  obtain ⟨tr, u, hrun, -, hended, -⟩ :=
    exists_run_done (serving (fun _ => ⟨ofFirst, .record (.createVolume .blank)⟩) t.state) ()
  exact ⟨t, u, ht, hended, ⟨true, hdone true⟩,
    members_find_each_other ht (fun _ => rfl) hrun rfl ⟨false, hdone false⟩⟩

end Agent

end HostAgent
