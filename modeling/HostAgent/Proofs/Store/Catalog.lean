import HostAgent.Proofs.Store.Change
import HostAgent.Proofs.Store.Table
import HostAgent.Proofs.Task.Run

namespace HostAgent

/-!
# The catalog of a cluster

What the records of a cluster are, whatever the store: hosts under their identifiers, volumes under
names, and settings. An operation on the records does to a store in memory what it does to the
catalog that the store holds.
-/

/-- What a task comes to where every call has its answer. -/
def Task.value {I : Interface} {α : Type} (answer : (c : I.Call) → I.Answer c) : Task I α → α
  | .done a => a
  | .ask c next => (next (answer c)).value answer

namespace Store

structure Catalog where
  hosts : SortedMap Host
  volumes : SortedMap Volume
  settings : Option Settings
  named : ∀ u h, hosts.get? u = some h → h.uuid = u

namespace Catalog

def empty : Catalog where
  hosts := .empty
  volumes := .empty
  settings := none
  named := by
    intro u h hh
    cases hh

def setHost (c : Catalog) (h : Host) : Catalog where
  hosts := c.hosts.insert h.uuid h
  volumes := c.volumes
  settings := c.settings
  named := by
    intro u g hg
    rw [SortedMap.get?_insert] at hg
    split at hg
    next hu =>
      cases hg
      exact hu.symm
    next => exact c.named u g hg

def setVolume (c : Catalog) (name : String) (v : Volume) : Catalog :=
  { c with volumes := c.volumes.insert name v }

def eraseVolume (c : Catalog) (name : String) : Catalog :=
  { c with volumes := c.volumes.erase name }

def setSettings (c : Catalog) (settings : Settings) : Catalog :=
  { c with settings := some settings }

end Catalog

structure Space.Holds (s : Space) (m : Memory) (c : Catalog) : Prop where
  hosts : m.Stores s.hostKey c.hosts
  volumes : m.Stores s.volumeKey c.volumes
  settings : (m.get? s.settingsKey).map Entry.value = c.settings.map Record.text

namespace Space.Holds

variable {s : Space} {m : Memory} {c : Catalog}

theorem empty (s : Space) : s.Holds .empty .empty := ⟨fun _ => rfl, fun _ => rfl, rfl⟩

theorem direct_hosts (h : s.Holds m c) :
    Space.fetchedAll (.ok (m.children s.hostsDir)) = .ok c.hosts.direct.values := by
  apply Memory.Stores.fetchedAll_children
  rw [below_hostsDir]
  exact h.hosts

theorem direct_volumes (h : s.Holds m c) :
    Space.fetchedAll (.ok (m.children s.volumesDir)) = .ok c.volumes.direct.values := by
  apply Memory.Stores.fetchedAll_children
  rw [below_volumesDir]
  exact h.volumes

theorem write_host (h : s.Holds m c) (x : Host) :
    s.Holds (m.write (s.hostKey x.uuid) (Record.text x)) (c.setHost x) where
  hosts := h.hosts.write s.hostKey_injective x.uuid x
  volumes := h.volumes.write_of_ne (fun _ => hostKey_ne_volumeKey.symm) _
  settings := by
    rw [Memory.get?_write, if_neg hostKey_ne_settingsKey.symm]
    exact h.settings

theorem write_volume (h : s.Holds m c) (name : String) (v : Volume) :
    s.Holds (m.write (s.volumeKey name) (Record.text v)) (c.setVolume name v) where
  hosts := h.hosts.write_of_ne (fun _ => hostKey_ne_volumeKey) _
  volumes := h.volumes.write s.volumeKey_injective name v
  settings := by
    rw [Memory.get?_write, if_neg volumeKey_ne_settingsKey.symm]
    exact h.settings

theorem write_settings (h : s.Holds m c) (x : Settings) :
    s.Holds (m.write s.settingsKey (Record.text x)) (c.setSettings x) where
  hosts := h.hosts.write_of_ne (fun _ => hostKey_ne_settingsKey) _
  volumes := h.volumes.write_of_ne (fun _ => volumeKey_ne_settingsKey) _
  settings := by
    rw [Memory.get?_write, if_pos rfl]
    rfl

theorem erase_volume (h : s.Holds m c) (name : String) :
    s.Holds (m.erase (s.volumeKey name)) (c.eraseVolume name) where
  hosts := h.hosts.erase_of_ne fun _ => hostKey_ne_volumeKey
  volumes := h.volumes.erase s.volumeKey_injective name
  settings := by
    rw [Memory.get?_erase, if_neg volumeKey_ne_settingsKey.symm]
    exact h.settings

end Space.Holds

/-! ## Operations -/

/-- The operations on records. A change of a volume may rely on another part. -/
inductive Space.Operation (M : Interface) where
  | setHost (h : Host)
  | getHost (uuid : String)
  | listHosts
  | createVolume (v : Volume)
  | setVolume (v : Volume)
  | getVolume (name : String)
  | listVolumes
  | deleteVolume (name : String)
  | changeVolume (name : String) (mutate : Volume → Task M Volume)
  | getSettings
  | setSettings (settings : Settings)

namespace Space.Operation

variable {M : Interface}

def Value : Operation M → Type
  | .setHost _ | .createVolume _ | .setVolume _ | .setSettings _ => Unit
  | .getHost _ => Option Host
  | .listHosts => List Host
  | .getVolume _ | .changeVolume _ _ => Option Volume
  | .listVolumes => List Volume
  | .deleteVolume _ => Bool
  | .getSettings => Option Settings

/-- Whether an operation is not meant to change anything. -/
def isReading : Operation M → Bool
  | .getHost _ | .listHosts | .getVolume _ | .listVolumes | .getSettings => true
  | _ => false

def change (s : Space) : (o : Operation M) → Change M o.Value
  | .setHost h => .ofOp (s.setHost h)
  | .getHost uuid => .ofOp (s.getHost uuid)
  | .listHosts => .ofOp s.listHosts
  | .createVolume v => .ofOp (s.createVolume v)
  | .setVolume v => .ofOp (s.setVolume v)
  | .getVolume name => .ofOp (s.getVolume name)
  | .listVolumes => .ofOp s.listVolumes
  | .deleteVolume name => .ofOp (s.deleteVolume name)
  | .changeVolume name mutate => s.changeVolume name mutate
  | .getSettings => .ofOp s.getSettings
  | .setSettings settings => .ofOp (s.setSettings settings)

def apply (s : Space) (answer : (c : M.Call) → M.Answer c) (c : Catalog) :
    (o : Operation M) → Except Error o.Value × Catalog
  | .setHost h => (.ok (), c.setHost h)
  | .getHost uuid => (.ok (c.hosts.get? uuid), c)
  | .listHosts => (.ok c.hosts.direct.values, c)
  | .createVolume v =>
    match c.volumes.get? v.name with
    | none => (.ok (), c.setVolume v.name v)
    | some _ => (.error (.conflict (s.volumeKey v.name)), c)
  | .setVolume v => (.ok (), c.setVolume v.name v)
  | .getVolume name => (.ok (c.volumes.get? name), c)
  | .listVolumes => (.ok c.volumes.direct.values, c)
  | .deleteVolume name => (.ok (c.volumes.get? name).isSome, c.eraseVolume name)
  | .changeVolume name mutate =>
    match c.volumes.get? name with
    | none => (.ok none, c)
    | some v =>
      let v := (mutate v).value answer
      (.ok (some v), c.setVolume name v)
  | .getSettings => (.ok c.settings, c)
  | .setSettings settings => (.ok (), c.setSettings settings)

end Space.Operation

def Memory.stepBeside {M : Interface} (answer : (c : M.Call) → M.Answer c) :
    (c : (interface.sum M).Call) → Memory → (interface.sum M).Answer c × Memory
  | .inl c, m => m.step c
  | .inr c, m => (answer c, m)

/-- What became of a store and what became of a catalog belong together: the answers are the same,
the catalog is the one that is held, and after a reading or an error the store is as it was. -/
structure Space.Matches (s : Space) {ε α : Type} (m : Memory) (isReading : Bool)
    (p : Except ε α × Memory) (q : Except ε α × Catalog) : Prop where
  answer : p.1 = q.1
  holds : s.Holds p.2 q.2
  unchanged : isReading = true ∨ (∃ e, p.1 = .error e) → p.2 = m

namespace Space

variable {M : Interface} {s : Space} {m m' : Memory} {c c' : Catalog} {ε α : Type}

theorem Holds.unchanged (h : s.Holds m c) (isReading : Bool) (a : Except ε α) :
    s.Matches m isReading (a, m) (a, c) := ⟨rfl, h, fun _ => rfl⟩

theorem Holds.changed (h : s.Holds m' c') (a : α) :
    s.Matches (ε := ε) m false (.ok a, m') (.ok a, c') where
  answer := rfl
  holds := h
  unchanged := by
    rintro (hreading | ⟨e, he⟩)
    · cases hreading
    · cases he

theorem Matches.of_reading {p : Except ε α × Memory} {r : Except ε α}
    (h : s.Matches m true p (r, c')) : p = (r, m) :=
  Prod.ext h.answer (h.unchanged (.inl rfl))

theorem Matches.of_ok {p : Except ε α × Memory} {isReading : Bool} {x : α}
    (h : s.Matches m isReading p (.ok x, c')) :
    ∃ m', p = (.ok x, m') ∧ s.Holds m' c' ∧ (isReading = true → m' = m) :=
  ⟨p.2, Prod.ext h.answer rfl, h.holds, fun hreading => h.unchanged (.inl hreading)⟩

theorem Matches.of_error {p : Except ε α × Memory} {isReading : Bool} {e : ε}
    (h : s.Matches m isReading p (.error e, c')) : p = (.error e, m) ∧ s.Holds m c' := by
  have hmemory : p.2 = m := h.unchanged (.inr ⟨e, h.answer⟩)
  exact ⟨Prod.ext h.answer hmemory, hmemory ▸ h.holds⟩

theorem Matches.weaken {p : Except ε α × Memory} {q : Except ε α × Catalog}
    (h : s.Matches m true p q) : s.Matches m false p q :=
  ⟨h.answer, h.holds, fun _ => h.unchanged (.inl rfl)⟩

/-! ### One operation -/

theorem Holds.setHost (h : s.Holds m c) (x : Host) :
    s.Matches m false ((s.setHost x).run.run Memory.step m) (.ok (), c.setHost x) := by
  rw [Space.setHost, run_put]
  exact (h.write_host x).changed ()

theorem Holds.getHost (h : s.Holds m c) (uuid : String) :
    s.Matches m true ((s.getHost uuid).run.run Memory.step m) (.ok (c.hosts.get? uuid), c) := by
  rw [Space.getHost, run_fetch_map, found_of_map (h.hosts uuid)]
  exact h.unchanged true _

theorem Holds.listHosts (h : s.Holds m c) :
    s.Matches m true (s.listHosts.run.run Memory.step m) (.ok c.hosts.direct.values, c) := by
  rw [Space.listHosts, run_fetchAll, h.direct_hosts]
  exact h.unchanged true _

theorem Holds.createVolume (h : s.Holds m c) (v : Volume) :
    s.Matches m false ((s.createVolume v).run.run Memory.step m)
      (match c.volumes.get? v.name with
      | none => (.ok (), c.setVolume v.name v)
      | some _ => (.error (.conflict (s.volumeKey v.name)), c)) := by
  have hname := h.volumes v.name
  rw [run_createVolume]
  cases hentry : m.get? (s.volumeKey v.name) with
  | none =>
    rw [hentry] at hname
    rw [Option.map_eq_none_iff.mp hname.symm]
    exact (h.write_volume v.name v).changed ()
  | some e =>
    obtain ⟨u, hu, -⟩ := decode_of_map hname hentry
    rw [hu]
    exact h.unchanged false _

theorem Holds.setVolume (h : s.Holds m c) (v : Volume) :
    s.Matches m false ((s.setVolume v).run.run Memory.step m) (.ok (), c.setVolume v.name v) := by
  rw [Space.setVolume, run_put]
  exact (h.write_volume v.name v).changed ()

theorem Holds.getVolume (h : s.Holds m c) (name : String) :
    s.Matches m true ((s.getVolume name).run.run Memory.step m) (.ok (c.volumes.get? name), c) := by
  rw [Space.getVolume, run_fetch_map, found_of_map (h.volumes name)]
  exact h.unchanged true _

theorem Holds.listVolumes (h : s.Holds m c) :
    s.Matches m true (s.listVolumes.run.run Memory.step m) (.ok c.volumes.direct.values, c) := by
  rw [Space.listVolumes, run_fetchAll, h.direct_volumes]
  exact h.unchanged true _

theorem Holds.deleteVolume (h : s.Holds m c) (name : String) :
    s.Matches m false ((s.deleteVolume name).run.run Memory.step m)
      (.ok (c.volumes.get? name).isSome, c.eraseVolume name) := by
  have hsome := congrArg Option.isSome (h.volumes name)
  rw [Option.isSome_map, Option.isSome_map] at hsome
  rw [← hsome]
  exact (h.erase_volume name).changed _

theorem Holds.deleteVolume_of_none (h : s.Holds m c) {name : String}
    (hname : c.volumes.get? name = none) :
    s.Matches m true ((s.deleteVolume name).run.run Memory.step m) (.ok false, c) := by
  have hentry := h.volumes name
  rw [hname, Option.map_none, Option.map_eq_none_iff] at hentry
  have hrun : (s.deleteVolume name).run.run Memory.step m = (.ok false, m) := by
    refine (Task.run_call (I := interface) Memory.step (.delete (s.volumeKey name)) m).trans ?_
    rw [Memory.step_delete, Memory.erase_of_get?_eq_none hentry, hentry]
    rfl
  rw [hrun]
  exact h.unchanged true _

theorem Holds.getSettings (h : s.Holds m c) :
    s.Matches m true (s.getSettings.run.run Memory.step m) (.ok c.settings, c) := by
  rw [Space.getSettings, run_fetch_map, found_of_map h.settings]
  exact h.unchanged true _

theorem Holds.setSettings (h : s.Holds m c) (x : Settings) :
    s.Matches m false ((s.setSettings x).run.run Memory.step m) (.ok (), c.setSettings x) := by
  rw [Space.setSettings, run_put]
  exact (h.write_settings x).changed ()

/-! ### Changes -/

variable (answer : (c : M.Call) → M.Answer c)

theorem Matches.ofOp {op : Op α} {isReading : Bool} {q : Except Error α × Catalog}
    (h : s.Matches m isReading (op.run.run Memory.step m) q) :
    s.Matches m isReading ((Change.ofOp op).run.run (Memory.stepBeside answer) m) q := by
  have hrun : (Change.ofOp (M := M) op).run.run (Memory.stepBeside answer) m =
      op.run.run Memory.step m := by
    change (op.run.interpret _).run (Memory.stepBeside answer) m = _
    rw [Task.run_interpret]
    exact Task.run_congr (fun c m => rfl) _ _
  rw [hrun]
  exact h

theorem run_inr (t : Task M α) (m : Memory) :
    (Task.inr (I := interface) t).run (Memory.stepBeside answer) m = (t.value answer, m) := by
  induction t with
  | done a => rfl
  | ask c next ih => exact ih (answer c)

theorem run_changeVolume (s : Space) (name : String) (mutate : Volume → Task M Volume)
    (m : Memory) :
    (s.changeVolume name mutate).run.run (Memory.stepBeside answer) m =
      (afterRead (s.volumeKey name) mutate 4 (.ok (m.get? (s.volumeKey name)))).run
        (Memory.stepBeside answer) m := by
  rw [changeVolume, maxRounds, changeRounds_succ]
  rfl

/-- Alone on a store, a change succeeds in its first round. -/
theorem run_afterRead_of_some {key : String} {mutate : Volume → Task M Volume} {n : Nat} {e : Entry}
    {u v : Volume} (he : m.get? key = some e) (hu : decode e.value = .ok u)
    (hv : (mutate u).value answer = v) :
    (afterRead key mutate n (.ok (some e))).run (Memory.stepBeside answer) m =
      (.ok (some v), m.write key (Record.text v)) := by
  have hwrite : m.step (.compareAndSet key (Record.text v) e.index) =
      (.ok (m.index + 1), m.write key (Record.text v)) := by
    rw [Memory.step, he, Option.map_some, if_pos rfl]
  simp only [afterRead, hu]
  rw [Task.run_bind, run_inr, hv]
  change (afterWrite key mutate n v (m.step (.compareAndSet key (Record.text v) e.index)).1).run _
    (m.step (.compareAndSet key (Record.text v) e.index)).2 = _
  rw [hwrite]
  rfl

theorem Holds.changeVolume_of_none (h : s.Holds m c) {name : String}
    (mutate : Volume → Task M Volume) (hname : c.volumes.get? name = none) :
    s.Matches m true ((s.changeVolume name mutate).run.run (Memory.stepBeside answer) m)
      (.ok none, c) := by
  have hentry := h.volumes name
  rw [hname, Option.map_none, Option.map_eq_none_iff] at hentry
  rw [run_changeVolume, hentry]
  exact h.unchanged true _

theorem Holds.changeVolume_of_some (h : s.Holds m c) {name : String}
    (mutate : Volume → Task M Volume) {u v : Volume} (hname : c.volumes.get? name = some u)
    (hv : (mutate u).value answer = v) :
    s.Matches m false ((s.changeVolume name mutate).run.run (Memory.stepBeside answer) m)
      (.ok (some v), c.setVolume name v) := by
  have hentry := h.volumes name
  rw [hname, Option.map_some] at hentry
  obtain ⟨e, he, htext⟩ := Option.map_eq_some_iff.mp hentry
  have hdecode : decode e.value = .ok u := by rw [htext, decode_text]
  rw [run_changeVolume, he, run_afterRead_of_some answer he hdecode hv]
  exact (h.write_volume name v).changed _

theorem Holds.changeVolume (h : s.Holds m c) (name : String) (mutate : Volume → Task M Volume) :
    s.Matches m false ((s.changeVolume name mutate).run.run (Memory.stepBeside answer) m)
      (match c.volumes.get? name with
      | none => (.ok none, c)
      | some v => (.ok (some ((mutate v).value answer)),
          c.setVolume name ((mutate v).value answer))) := by
  cases hname : c.volumes.get? name with
  | none => exact (h.changeVolume_of_none answer mutate hname).weaken
  | some u => exact h.changeVolume_of_some answer mutate hname rfl

/-- Every operation on the records does to the store what it does to the catalog. -/
theorem Holds.operation (h : s.Holds m c) (o : Operation M) :
    s.Matches m o.isReading ((o.change s).run.run (Memory.stepBeside answer) m)
      (o.apply s answer c) := by
  cases o with
  | setHost x => exact (h.setHost x).ofOp answer
  | getHost uuid => exact (h.getHost uuid).ofOp answer
  | listHosts => exact h.listHosts.ofOp answer
  | createVolume v => exact (h.createVolume v).ofOp answer
  | setVolume v => exact (h.setVolume v).ofOp answer
  | getVolume name => exact (h.getVolume name).ofOp answer
  | listVolumes => exact h.listVolumes.ofOp answer
  | deleteVolume name => exact (h.deleteVolume name).ofOp answer
  | changeVolume name mutate => exact h.changeVolume answer name mutate
  | getSettings => exact h.getSettings.ofOp answer
  | setSettings x => exact (h.setSettings x).ofOp answer

end Space

end Store

end HostAgent
