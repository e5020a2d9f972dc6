import HostAgent.Proofs.Store.Catalog
import HostAgent.Proofs.Store.Writers
import HostAgent.Proofs.Task.Protocol

namespace HostAgent.Store

/-!
# Listings and lookups

A lookup goes to the key of a record, and a listing gives what stands directly below a directory.
As long as every record stands under its own identifier, both give the same records, except that a
record whose identifier has a slash stands in a directory further below, where only a lookup finds
it. Clients that share a store keep records in their places, whatever programs of operations they
are and however they interleave.
-/

open Interleaving

variable {M : Interface} {s : Space}

/-! ## Records in their places -/

/-- All volumes stand under their names. -/
def Catalog.Named (c : Catalog) : Prop := ∀ n v, c.volumes.get? n = some v → v.name = n

namespace Catalog.Named

variable {c : Catalog}

theorem empty : Catalog.empty.Named := by
  intro n v h
  cases h

theorem setHost (hc : c.Named) (h : Host) : (c.setHost h).Named := hc

theorem setSettings (hc : c.Named) (x : Settings) : (c.setSettings x).Named := hc

theorem setVolume (hc : c.Named) (v : Volume) : (c.setVolume v.name v).Named := by
  intro n w hw
  rw [Catalog.setVolume, SortedMap.get?_insert] at hw
  split at hw
  next hn =>
    cases hw
    exact hn.symm
  next => exact hc n w hw

theorem eraseVolume (hc : c.Named) (name : String) : (c.eraseVolume name).Named := by
  intro n w hw
  rw [Catalog.eraseVolume, SortedMap.get?_erase] at hw
  split at hw
  next => cases hw
  next => exact hc n w hw

end Catalog.Named

namespace Space

/-- The store holds records, each of them under its own identifier. -/
def Ordered (s : Space) (m : Memory) : Prop := ∃ c, s.Holds m c ∧ c.Named

/-- The calls that keep records in their places: those that write nothing, and those that write a
record under its own identifier or take one away. -/
inductive Admits (s : Space) : Call → Prop
  | get (key : String) : Admits s (.get key)
  | list (dir : String) : Admits s (.list dir)
  | setHost (h : Host) : Admits s (.set (s.hostKey h.uuid) (Record.text h))
  | setSettings (x : Settings) : Admits s (.set s.settingsKey (Record.text x))
  | setVolume (v : Volume) : Admits s (.set (s.volumeKey v.name) (Record.text v))
  | createVolume (v : Volume) : Admits s (.create (s.volumeKey v.name) (Record.text v))
  | replaceVolume (v : Volume) (index : Nat) :
      Admits s (.compareAndSet (s.volumeKey v.name) (Record.text v) index)
  | deleteVolume (name : String) : Admits s (.delete (s.volumeKey name))

/-- A volume that was read under a name has this name. -/
def Trusty (s : Space) : (c : Call) → c.Answer → Prop
  | .get key, (.ok (some e) : Except Error (Option Entry)) =>
    ∀ n (v : Volume), key = s.volumeKey n → decode e.value = .ok v → v.name = n
  | _, _ => True

theorem ordered_empty (s : Space) : s.Ordered .empty :=
  ⟨.empty, .empty s, .empty⟩

theorem Ordered.write_volume {m : Memory} (h : s.Ordered m) (v : Volume) :
    s.Ordered (m.write (s.volumeKey v.name) (Record.text v)) := by
  obtain ⟨c, hc, hnamed⟩ := h
  exact ⟨c.setVolume v.name v, hc.write_volume v.name v, hnamed.setVolume v⟩

theorem Ordered.step {m : Memory} {c : Call} (h : s.Ordered m) (hc : s.Admits c) :
    s.Ordered (m.step c).2 := by
  cases hc with
  | get key => exact h
  | list dir => exact h
  | setHost x =>
    obtain ⟨k, hk, hnamed⟩ := h
    exact ⟨k.setHost x, hk.write_host x, hnamed.setHost x⟩
  | setSettings x =>
    obtain ⟨k, hk, hnamed⟩ := h
    exact ⟨k.setSettings x, hk.write_settings x, hnamed.setSettings x⟩
  | setVolume v => exact h.write_volume v
  | createVolume v =>
    cases hv : m.get? (s.volumeKey v.name) with
    | none =>
      rw [Memory.step_create_of_none hv]
      exact h.write_volume v
    | some e =>
      rw [Memory.step_create_of_some hv]
      exact h
  | replaceVolume v index =>
    simp only [Memory.step]
    split
    · exact h.write_volume v
    · exact h
  | deleteVolume name =>
    obtain ⟨k, hk, hnamed⟩ := h
    exact ⟨k.eraseVolume name, hk.erase_volume name, hnamed.eraseVolume name⟩

theorem Ordered.trusty {m : Memory} (h : s.Ordered m) (c : Call) : s.Trusty c (m.step c).1 := by
  cases c with
  | get key =>
    cases he : m.get? key with
    | none =>
      rw [Memory.step, he]
      trivial
    | some e =>
      rw [Memory.step, he]
      rintro n v rfl hv
      obtain ⟨c, hc, hnamed⟩ := h
      obtain ⟨w, hw, hdecode⟩ := decode_of_map (hc.volumes n) he
      rw [hdecode] at hv
      cases hv
      exact hnamed n v hw
  | list dir => trivial
  | set key value => trivial
  | create key value => trivial
  | compareAndSet key value index => trivial
  | delete key => trivial

/-! ## Operations -/

/-- As long as volumes are read under their names, a task makes calls that keep records in their
places. The phase says whether that has been so. -/
def keeping (s : Space) : Protocol (interface.sum M) Prop where
  allows
    | p, .inl c => p → s.Admits c
    | _, .inr _ => True
  next
    | p, .inl c, a => p ∧ s.Trusty c a
    | p, .inr _, _ => p

/-- A task keeps records in their places from any phase on. -/
def Keeps {α : Type} (s : Space) (t : Task (interface.sum M) α) : Prop :=
  ∀ p, t.Obeys s.keeping (fun _ _ => True) p

theorem keeps_done {α : Type} (a : α) : s.Keeps (M := M) (.done a) := fun _ => trivial

theorem Keeps.bind {α β : Type} {t : Task (interface.sum M) α} {f : α → Task (interface.sum M) β}
    (h : s.Keeps t) (hf : ∀ a, s.Keeps (f a)) : s.Keeps (t.bind f) :=
  fun p => (h p).bind fun p a _ => hf a p

theorem keeps_ofOp {α : Type} {op : Op α} {c : Call} {g : c.Answer → Except Error α}
    (hop : op.run = .ask c fun a => .done (g a)) (hc : s.Admits c) :
    s.Keeps (M := M) (Change.ofOp op).run := by
  intro p
  rw [Change.ofOp, hop]
  exact ⟨fun _ => hc, fun _ => trivial⟩

/-- What a task does on its own part leaves the phase as it is. -/
theorem obeys_inr_bind {α β : Type} {p : Prop} {t : Task M α} {f : α → Task (interface.sum M) β}
    (h : ∀ a, t.Yields a → (f a).Obeys s.keeping (fun _ _ => True) p) :
    (t.inr.bind f).Obeys s.keeping (fun _ _ => True) p := by
  induction t with
  | done a => exact h a ⟨[], .nil _⟩
  | ask c next ih =>
    refine ⟨trivial, fun a => ih a ?_⟩
    rintro b ⟨l, hl⟩
    exact h b ⟨_, Task.Path.cons (I := M) (c := c) a hl⟩

/-- A change of a volume by which it keeps its name, if it is read under it. -/
theorem keeps_changeRounds {name : String} {mutate : Volume → Task M Volume}
    (hname : ∀ u v, (mutate u).Yields v → v.name = u.name) (n : Nat) :
    s.Keeps (changeRounds (s.volumeKey name) mutate n).run := by
  induction n with
  | zero => exact keeps_done _
  | succ n ih =>
    intro p
    rw [changeRounds_succ]
    refine Task.obeys_ask (fun _ => .get _) fun a => ?_
    rcases a with f | _ | e
    · exact trivial
    · exact trivial
    rw [afterRead]
    cases hu : decode (α := Volume) e.value with
    | error f => exact trivial
    | ok u =>
      refine obeys_inr_bind fun v hv => Task.obeys_ask ?_ fun b => ?_
      · rintro ⟨-, htrusty⟩
        have hvname : v.name = name := (hname u v hv).trans (htrusty name u rfl hu)
        rw [← hvname]
        exact .replaceVolume v e.index
      · rcases b with f | k
        · rw [afterWrite]
          split
          · exact ih _
          · exact trivial
        · exact trivial

/-- An operation by which a volume would keep its name. -/
def Operation.KeepsName : Operation M → Prop
  | .changeVolume _ mutate => ∀ u v, (mutate u).Yields v → v.name = u.name
  | _ => True

theorem Operation.keeps {o : Operation M} (ho : o.KeepsName) : s.Keeps (o.change s).run := by
  cases o with
  | setHost h => exact keeps_ofOp (put_run _ h) (.setHost h)
  | getHost uuid => exact keeps_ofOp (fetch_map_run _) (.get _)
  | listHosts => exact keeps_ofOp (fetchAll_run _) (.list _)
  | createVolume v => exact keeps_ofOp (createVolume_run s v) (.createVolume v)
  | setVolume v => exact keeps_ofOp (put_run _ v) (.setVolume v)
  | getVolume name => exact keeps_ofOp (fetch_map_run _) (.get _)
  | listVolumes => exact keeps_ofOp (fetchAll_run _) (.list _)
  | deleteVolume name => exact keeps_ofOp (deleteVolume_run s name) (.deleteVolume name)
  | changeVolume name mutate => exact keeps_changeRounds ho maxRounds
  | getSettings => exact keeps_ofOp (fetch_map_run _) (.get _)
  | setSettings x => exact keeps_ofOp (put_run _ x) (.setSettings x)

/-! ## Programs of operations -/

/-- The operations on records as calls. -/
def operations (M : Interface) : Interface := ⟨Operation M, fun o => Except Error o.Value⟩

/-- A program of operations on the records of a space. -/
def program {α : Type} (s : Space) (t : Task (operations M) α) : Task (interface.sum M) α :=
  t.interpret fun o => (Operation.change s o).run

theorem keeps_program {α : Type} {t : Task (operations M) α} (ht : t.Asks Operation.KeepsName) :
    s.Keeps (s.program t) := by
  induction t with
  | done a => exact keeps_done a
  | ask o next ih => exact (Operation.keeps ht.1).bind fun a => ih a (ht.2 a)

section Runs

variable {ι α : Type} [DecidableEq ι] {t u : Situation Memory.shared M ι α}
variable {mo : Moment Memory.shared M ι} {tr : List (Moment Memory.shared M ι)}
variable {clients : ι → Task (operations M) α}

/-- The clients of a space that has nothing yet. -/
def started (s : Space) (clients : ι → Task (operations M) α) : Situation Memory.shared M ι α :=
  ⟨.empty, fun i => s.program (clients i)⟩

theorem Ordered.next (h : s.Ordered t.state) (hstep : Step t mo u)
    (hallowed : ∀ i c x, mo.act = .exchange i ⟨.inl c, x⟩ → s.Admits c) : s.Ordered u.state := by
  rcases step_state hstep with ⟨hu, -⟩ | ⟨i, c, hact, hu⟩
  · rw [hu]
    exact h
  · rw [hu]
    exact h.step (hallowed i c _ hact)

/-- All exchanges of a step are such that the phase stays. -/
theorem Ordered.stays (h : s.Ordered t.state) (hstep : Step t mo u) {i : ι}
    {x : Exchange (interface.sum M)} (hx : mo.act = .exchange i x) {p : Prop} (hp : p) :
    s.keeping.next p x.1 x.2 := by
  obtain ⟨c | c, a⟩ := x
  · refine ⟨hp, ?_⟩
    have hanswer := hstep.answer_eq hx
    have htrusty := h.trusty c
    rw [← hstep.before_eq] at htrusty
    exact (congrArg (fun r => s.Trusty c r.1) hanswer).mp htrusty
  · exact hp

/-- The invariant of a run: records are in their places, and so far all volumes have been read under
their names. Each of the two keeps the other. -/
theorem ordered_of_run (hclients : ∀ i, (clients i).Asks Operation.KeepsName)
    (h : Run (s.started clients) tr t) :
    s.Ordered t.state ∧ ∀ i, s.keeping.after True (exchanges i tr) := by
  induction h with
  | nil => exact ⟨ordered_empty s, fun _ => trivial⟩
  | @concat tr mo t u hrun hstep ih =>
    obtain ⟨hordered, hphase⟩ := ih
    refine ⟨hordered.next hstep ?_, fun i => ?_⟩
    · intro i c x hact
      have hobeys := hrun.obeys (i := i) (keeps_program (hclients i) True)
      exact hstep.allows hobeys hact (hphase i)
    · rw [exchanges_concat]
      cases hact : mo.act.of? i with
      | none => simpa using hphase i
      | some x =>
        rw [Option.toList_some, Protocol.after_concat]
        exact hordered.stays hstep (Act.of?_eq_some_iff.mp hact) (hphase i)

end Runs

/-! ## What is shown -/

/-- A listing and a lookup agree on a store: the lookup gives a record of the identifier that it is
asked for, or nothing, and the listing has just the records that the lookup gives for identifiers
without a slash. -/
def Agree {β : Type} (identifier : β → String) (lookup : String → Op (Option β))
    (listing : Op (List β)) (m : Memory) : Prop :=
  (∀ n, ∃ r, (lookup n).run.run Memory.step m = (.ok r, m) ∧ ∀ b, r = some b → identifier b = n) ∧
    ∃ l, listing.run.run Memory.step m = (.ok l, m) ∧
      ∀ n b, b ∈ l ∧ identifier b = n ↔
        (lookup n).run.run Memory.step m = (.ok (some b), m) ∧ '/' ∉ n.toList

theorem agree_of_table {β : Type} {identifier : β → String} {lookup : String → Op (Option β)}
    {listing : Op (List β)} {m : Memory} {table : SortedMap β}
    (hidentifier : ∀ n b, table.get? n = some b → identifier b = n)
    (hlookup : ∀ n, (lookup n).run.run Memory.step m = (.ok (table.get? n), m))
    (hlisting : listing.run.run Memory.step m = (.ok table.direct.values, m)) :
    Agree identifier lookup listing m := by
  refine ⟨fun n => ⟨table.get? n, hlookup n, hidentifier n⟩, table.direct.values, hlisting, ?_⟩
  intro n b
  have hget : (lookup n).run.run Memory.step m = (.ok (some b), m) ↔ table.get? n = some b := by
    rw [hlookup n]
    simp
  rw [hget, SortedMap.values, List.mem_map]
  constructor
  · rintro ⟨⟨⟨k, b⟩, hmem, rfl⟩, rfl⟩
    obtain ⟨hk, hslash⟩ := SortedMap.mem_direct.mp hmem
    have hkb : identifier b = k := hidentifier k b hk
    exact ⟨hkb ▸ hk, hkb ▸ hslash⟩
  · rintro ⟨hn, hslash⟩
    exact ⟨⟨(n, b), SortedMap.mem_direct.mpr ⟨hn, hslash⟩, rfl⟩, hidentifier n b hn⟩

theorem Ordered.agree {m : Memory} (h : s.Ordered m) :
    Agree Volume.name s.getVolume s.listVolumes m ∧ Agree Host.uuid s.getHost s.listHosts m := by
  obtain ⟨c, hc, hnamed⟩ := h
  constructor
  · apply agree_of_table hnamed
    · exact fun n => (hc.getVolume n).of_reading
    · exact hc.listVolumes.of_reading
  · apply agree_of_table c.named
    · exact fun n => (hc.getHost n).of_reading
    · exact hc.listHosts.of_reading

section Interleaved

variable {ι α : Type} [DecidableEq ι] {t : Situation Memory.shared M ι α}
variable {tr : List (Moment Memory.shared M ι)} {clients : ι → Task (operations M) α}

/-- In every state that programs of operations come to on a store that had nothing at first, the
listings agree with the lookups. What is asked of the programs is that their changes of volumes
leave the names as they are. -/
theorem listings_agree_with_lookups (hclients : ∀ i, (clients i).Asks Operation.KeepsName)
    (h : Run (s.started clients) tr t) :
    Agree Volume.name s.getVolume s.listVolumes t.state ∧
      Agree Host.uuid s.getHost s.listHosts t.state :=
  (ordered_of_run hclients h).1.agree

end Interleaved

def halved : Volume := { Volume.blank with name := "a/b" }

def secluded : Host := ⟨"r/1", "", ""⟩

/-- One client creates a volume and another one registers a host, both under identifiers that have a
slash. -/
def slashed : Bool → Task (operations Interface.nothing) Unit
  | false => .ask (.createVolume halved) fun _ => .done ()
  | true => .ask (.setHost secluded) fun _ => .done ()

/-- What is in the store after the turns of both. -/
def slashedCatalog : Catalog := (Catalog.empty.setVolume "a/b" halved).setHost secluded

theorem run_slashed :
    ∃ tr t, Run (started ⟨""⟩ slashed) tr t ∧ (∀ i, t.tasks i = .done ()) ∧
      Holds ⟨""⟩ t.state slashedCatalog := by
  have hcreate : program ⟨""⟩ (slashed false) = .ask (.inl (.create "/volumes/a/b"
      (Record.text halved))) fun _ => .done () := by
    change Task.bind (Task.inl (createVolume ⟨""⟩ halved).run) _ = _
    rw [createVolume_run]
    rfl
  have hset : program ⟨""⟩ (slashed true) = .ask (.inl (.set "/hosts/r/1"
      (Record.text secluded))) fun _ => .done () := by
    change Task.bind (Task.inl (setHost ⟨""⟩ secluded).run) _ = _
    rw [setHost, put_run]
    rfl
  have hempty : Memory.empty.step (.create "/volumes/a/b" (Record.text halved)) =
      (.ok 1, Memory.empty.write "/volumes/a/b" (Record.text halved)) :=
    Memory.step_create_of_none rfl
  obtain ⟨t₁, h₁, hs₁, hf₁, ho₁⟩ :=
    Run.exists_shared (.nil (s := started ⟨""⟩ slashed)) (i := false) hcreate hempty
  obtain ⟨t₂, h₂, hs₂, hf₂, ho₂⟩ :=
    h₁.exists_shared ((ho₁ true (by decide)).trans hset) (congrArg (Memory.step _) hs₁)
  refine ⟨_, t₂, h₂, ?_, ?_⟩
  · rintro (_ | _)
    · exact (ho₂ false (by decide)).trans hf₁
    · exact hf₂
  · rw [hs₂]
    exact ((Holds.empty ⟨""⟩).write_volume "a/b" halved).write_host secluded

theorem listings_agree_with_lookups_slashed :
    ∃ tr t, (∀ i, (slashed i).Asks Operation.KeepsName) ∧ Run (started ⟨""⟩ slashed) tr t ∧
      (∀ i, t.tasks i = .done ()) ∧
      Agree Volume.name (getVolume ⟨""⟩) (listVolumes ⟨""⟩) t.state ∧
      Agree Host.uuid (getHost ⟨""⟩) (listHosts ⟨""⟩) t.state := by
  have hclients : ∀ i, (slashed i).Asks Operation.KeepsName := by
    rintro (_ | _)
    · exact ⟨trivial, fun _ => trivial⟩
    · exact ⟨trivial, fun _ => trivial⟩
  obtain ⟨tr, t, h, hdone, -⟩ := run_slashed
  exact ⟨tr, t, hclients, h, hdone, listings_agree_with_lookups hclients h⟩

/-- A volume was created and a host was registered, the lookups find them, and the listings are
empty. -/
theorem slashed_records_not_listed :
    ∃ tr t, Run (started ⟨""⟩ slashed) tr t ∧ (∀ i, t.tasks i = .done ()) ∧
      (getVolume ⟨""⟩ "a/b").run.run Memory.step t.state = (.ok (some halved), t.state) ∧
      (listVolumes ⟨""⟩).run.run Memory.step t.state = (.ok [], t.state) ∧
      (getHost ⟨""⟩ "r/1").run.run Memory.step t.state = (.ok (some secluded), t.state) ∧
      (listHosts ⟨""⟩).run.run Memory.step t.state = (.ok [], t.state) := by
  obtain ⟨tr, t, h, hdone, hholds⟩ := run_slashed
  exact ⟨tr, t, h, hdone, (hholds.getVolume "a/b").of_reading, hholds.listVolumes.of_reading,
    (hholds.getHost "r/1").of_reading, hholds.listHosts.of_reading⟩

end Space

end HostAgent.Store
