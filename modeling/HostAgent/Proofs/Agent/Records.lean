import HostAgent.Agent
import HostAgent.Proofs.Record.Restamped
import HostAgent.Proofs.SortedMap
import HostAgent.Proofs.Store.Catalog

namespace HostAgent

/-!
# The records that agents keep

Agents that work one after another over a store in memory answer as if they kept a catalog: three
tables that do not touch each other, whatever the names in them.
-/

open Store Store.Space

/-! ## Operations of agents -/

namespace Agent

inductive Operation where
  | getHost (id : String)
  | listHosts
  | createVolume (v : Volume)
  | updateVolume (v : Volume)
  | deleteVolume (name : String)
  | getVolume (name : String)
  | listVolumes
  | markBadReplica (volume : String) (replica : Replica)
  | getSettings
  | setSettings (settings : Settings)

namespace Operation

def Value : Operation → Type
  | .getHost _ => Option Host
  | .listHosts => SortedMap Host
  | .createVolume _ => Volume
  | .updateVolume _ | .deleteVolume _ | .markBadReplica _ _ | .setSettings _ => Unit
  | .getVolume _ => Option Volume
  | .listVolumes => List Volume
  | .getSettings => Settings

def isReading : Operation → Bool
  | .getHost _ | .listHosts | .getVolume _ | .listVolumes | .getSettings => true
  | _ => false

def op (a : Agent) : (o : Operation) → Op o.Value
  | .getHost id => a.getHost id
  | .listHosts => a.listHosts
  | .createVolume v => a.createVolume v
  | .updateVolume v => a.updateVolume v
  | .deleteVolume name => a.deleteVolume name
  | .getVolume name => a.getVolume name
  | .listVolumes => a.listVolumes
  | .markBadReplica volume replica => a.markBadReplica volume replica
  | .getSettings => a.getSettings
  | .setSettings settings => a.setSettings settings

/-- What an operation does to a catalog at a moment. -/
def apply (a : Agent) (now : Time.Timestamp) (c : Catalog) :
    (o : Operation) → Result o.Value × Catalog
  | .getHost id => (.ok (c.hosts.get? id), c)
  | .listHosts => (.ok c.hosts.direct, c)
  | .createVolume v =>
    match c.volumes.get? v.name with
    | none => (.ok v, c.setVolume v.name v)
    | some _ => (.error (.alreadyExists "volume" v.name), c)
  | .updateVolume v =>
    match c.volumes.get? v.name with
    | none => (.error (.context s!"cannot update volume {v.name}" (.notFound "volume" v.name)), c)
    | some _ => (.ok (), c.setVolume v.name v)
  | .deleteVolume name =>
    match c.volumes.get? name with
    | none => (.error (.notFound "volume" name), c)
    | some _ => (.ok (), c.eraseVolume name)
  | .getVolume name => (.ok (c.volumes.get? name), c)
  | .listVolumes => (.ok c.volumes.direct.values, c)
  | .markBadReplica volume replica =>
    match c.volumes.get? volume with
    | none => (.error (.context "fail to mark bad replica" (.notFound "volume" volume)), c)
    | some v => (.ok (), c.setVolume volume (v.struck replica.inst.name now))
  | .getSettings => (.ok (c.settings.getD (.withDefaultTarget a.image)), c)
  | .setSettings settings => (.ok (), c.setSettings settings)

end Operation

/-- Answers an agent whose store is in memory, and for which the other parts answer as given. -/
def stepInMemory (others : (c : Call) → c.Answer) :
    (c : interface.Call) → Memory → interface.Answer c × Memory
  | .store c, m => m.step c
  | .container c, m => (others (.container c), m)
  | .wait w, m => (others (.wait w), m)
  | .now, m => (others .now, m)
  | .pick k, m => (others (.pick k), m)
  | .forward h r, m => (others (.forward h r), m)

variable {a : Agent} {m m' : Memory} {c : Catalog} {α β : Type} (others : (c : Call) → c.Answer)

theorem run_stored (t : Store.Op α) (m : Memory) :
    (stored t).run (stepInMemory others) m = t.run.run Memory.step m := by
  rw [stored, Task.run_interpret]
  exact Task.run_congr (fun c m => rfl) _ _

theorem run_ask (op key : String) (t : Store.Op α) (m : Memory) :
    (ask op key t).run.run (stepInMemory others) m =
      ((t.run.run Memory.step m).1.mapError (.store op key), (t.run.run Memory.step m).2) := by
  change ((stored t).bind fun r => .done (r.mapError (AgentError.store op key))).run _ m = _
  rw [Task.run_map, run_stored]

theorem matches_ask (op key : String) {t : Store.Op α} {isReading : Bool} {x : α}
    (h : a.space.Matches m isReading (t.run.run Memory.step m) (.ok x, c)) :
    a.space.Matches m isReading ((ask op key t).run.run (stepInMemory others) m) (.ok x, c) := by
  obtain ⟨m', hrun, -, -⟩ := h.of_ok
  rw [hrun] at h
  rw [run_ask, hrun]
  refine ⟨rfl, h.holds, ?_⟩
  rintro (hreading | ⟨e, he⟩)
  · exact h.unchanged (.inl hreading)
  · cases he

/-! ## One operation -/

theorem matches_getHost (h : a.space.Holds m c) (id : String) :
    a.space.Matches m true ((a.getHost id).run.run (stepInMemory others) m)
      (.ok (c.hosts.get? id), c) :=
  matches_ask others _ _ (h.getHost id)

/-- Hosts that stand under their identifiers are the map that is built of them. -/
theorem ofList_direct_hosts {t : SortedMap Host} (h : ∀ u x, t.get? u = some x → x.uuid = u) :
    SortedMap.ofList (t.direct.values.map fun x => (x.uuid, x)) = t.direct := by
  have hentries : (t.direct.values.map fun x => (x.uuid, x)) = t.direct.entries := by
    rw [SortedMap.values, List.map_map]
    conv_rhs => rw [← List.map_id t.direct.entries]
    apply List.map_congr_left
    rintro ⟨u, x⟩ hmem
    have huuid : x.uuid = u := h u x (SortedMap.mem_direct.mp hmem).1
    simp [huuid]
  rw [hentries, SortedMap.ofList_entries]

theorem matches_listHosts (h : a.space.Holds m c) :
    a.space.Matches m true (a.listHosts.run.run (stepInMemory others) m)
      (.ok c.hosts.direct, c) := by
  obtain ⟨m', hrun, hholds, hsame⟩ := (matches_ask others "list" "hosts" h.listHosts).of_ok
  obtain rfl := hsame rfl
  rw [listHosts, Task.run_bind_of_ok hrun]
  change a.space.Matches _ true (.ok (SortedMap.ofList _), _) _
  rw [ofList_direct_hosts c.named]
  exact hholds.unchanged true _

theorem matches_createVolume (h : a.space.Holds m c) (v : Volume) :
    a.space.Matches m false ((a.createVolume v).run.run (stepInMemory others) m)
      (match c.volumes.get? v.name with
      | none => (.ok v, c.setVolume v.name v)
      | some _ => (.error (.alreadyExists "volume" v.name), c)) := by
  have hcreate := h.createVolume v
  rw [← run_stored others] at hcreate
  rw [createVolume]
  cases hname : c.volumes.get? v.name with
  | none =>
    rw [hname] at hcreate
    obtain ⟨m', hrun, hholds, -⟩ := hcreate.of_ok
    rw [Task.run_bind_of_ok (Task.run_lift hrun)]
    exact hholds.changed v
  | some u =>
    rw [hname] at hcreate
    obtain ⟨hrun, hholds⟩ := hcreate.of_error
    rw [Task.run_bind_of_ok (Task.run_lift hrun)]
    exact hholds.unchanged false _

theorem matches_getVolume (h : a.space.Holds m c) (name : String) :
    a.space.Matches m true ((a.getVolume name).run.run (stepInMemory others) m)
      (.ok (c.volumes.get? name), c) :=
  matches_ask others _ _ (h.getVolume name)

theorem matches_updateVolume (h : a.space.Holds m c) (v : Volume) :
    a.space.Matches m false ((a.updateVolume v).run.run (stepInMemory others) m)
      (match c.volumes.get? v.name with
      | none =>
        (.error (.context s!"cannot update volume {v.name}" (.notFound "volume" v.name)), c)
      | some _ => (.ok (), c.setVolume v.name v)) := by
  obtain ⟨m', hrun, -, hsame⟩ := (matches_getVolume others h v.name).of_ok
  obtain rfl := hsame rfl
  rw [updateVolume, Task.run_bind_of_ok hrun]
  cases c.volumes.get? v.name with
  | none => exact h.unchanged false _
  | some u => exact matches_ask others _ _ (h.setVolume v)

theorem matches_deleteVolume (h : a.space.Holds m c) (name : String) :
    a.space.Matches m false ((a.deleteVolume name).run.run (stepInMemory others) m)
      (match c.volumes.get? name with
      | none => (.error (.notFound "volume" name), c)
      | some _ => (.ok (), c.eraseVolume name)) := by
  rw [deleteVolume]
  cases hname : c.volumes.get? name with
  | none =>
    obtain ⟨m', hrun, -, hsame⟩ := (matches_ask others "delete" (a.space.volumeKey name)
      (h.deleteVolume_of_none hname)).of_ok
    obtain rfl := hsame rfl
    rw [Task.run_bind_of_ok hrun]
    exact h.unchanged false _
  | some v =>
    obtain ⟨m', hrun, hholds, -⟩ := (matches_ask others "delete" (a.space.volumeKey name)
      (h.deleteVolume name)).of_ok
    rw [hname] at hrun
    rw [Task.run_bind_of_ok hrun]
    exact hholds.changed ()

theorem matches_listVolumes (h : a.space.Holds m c) :
    a.space.Matches m true (a.listVolumes.run.run (stepInMemory others) m)
      (.ok c.volumes.direct.values, c) :=
  matches_ask others _ _ h.listVolumes

theorem value_markNow (replica : String) (v : Volume) (now : Time.Timestamp) :
    (markNow replica v).value (fun _ => now) = v.struck replica now := by
  rw [markNow, ← Volume.markBad_eq_struck]
  cases hkey : v.replicaKey? replica with
  | none =>
    rw [Volume.markBad, hkey]
    rfl
  | some k => rfl

theorem run_change {t : Task (Store.interface.sum clock) α} (m : Memory) :
    (t.interpret (changeCall fun _ => call .now)).run (stepInMemory others) m =
      t.run (Memory.stepBeside fun _ => others .now) m := by
  rw [Task.run_interpret]
  apply Task.run_congr
  intro c m
  cases c with
  | inl c => rfl
  | inr c => rfl

theorem matches_markBadReplica (h : a.space.Holds m c) (volume : String) (replica : Replica) :
    a.space.Matches m false ((a.markBadReplica volume replica).run.run (stepInMemory others) m)
      (match c.volumes.get? volume with
      | none => (.error (.context "fail to mark bad replica" (.notFound "volume" volume)), c)
      | some v => (.ok (), c.setVolume volume (v.struck replica.inst.name (others .now)))) := by
  have hvalue : ∀ v, (markNow replica.inst.name v).value (fun _ => others .now) =
      v.struck replica.inst.name (others .now) := fun v => value_markNow _ v _
  rw [markBadReplica]
  cases hname : c.volumes.get? volume with
  | none =>
    have hchange := h.changeVolume_of_none (M := clock) (fun _ => others .now)
      (markNow replica.inst.name) hname
    rw [← run_change others] at hchange
    obtain ⟨m', hrun, -, hsame⟩ := hchange.of_ok
    obtain rfl := hsame rfl
    rw [Task.run_bind_of_ok (Task.run_lift hrun)]
    exact h.unchanged false _
  | some v =>
    have hchange := h.changeVolume_of_some (M := clock) (fun _ => others .now)
      (markNow replica.inst.name) hname (hvalue v)
    rw [← run_change others] at hchange
    obtain ⟨m', hrun, hholds, -⟩ := hchange.of_ok
    rw [Task.run_bind_of_ok (Task.run_lift hrun)]
    exact hholds.changed ()

theorem matches_getSettings (h : a.space.Holds m c) :
    a.space.Matches m true (a.getSettings.run.run (stepInMemory others) m)
      (.ok (c.settings.getD (.withDefaultTarget a.image)), c) := by
  obtain ⟨m', hrun, -, hsame⟩ := (matches_ask others "get" a.space.settingsKey h.getSettings).of_ok
  obtain rfl := hsame rfl
  rw [getSettings, Task.run_bind_of_ok hrun]
  cases c.settings with
  | none => exact h.unchanged true _
  | some x => exact h.unchanged true _

theorem matches_setSettings (h : a.space.Holds m c) (x : Settings) :
    a.space.Matches m false ((a.setSettings x).run.run (stepInMemory others) m)
      (.ok (), c.setSettings x) :=
  matches_ask others _ _ (h.setSettings x)

/-- Every operation of an agent does to the store what it does to the catalog. -/
theorem matches_operation (h : a.space.Holds m c) (o : Operation) :
    a.space.Matches m o.isReading ((o.op a).run.run (stepInMemory others) m)
      (o.apply a (others .now) c) := by
  cases o with
  | getHost id => exact matches_getHost others h id
  | listHosts => exact matches_listHosts others h
  | createVolume v => exact matches_createVolume others h v
  | updateVolume v => exact matches_updateVolume others h v
  | deleteVolume name => exact matches_deleteVolume others h name
  | getVolume name => exact matches_getVolume others h name
  | listVolumes => exact matches_listVolumes others h
  | markBadReplica volume replica => exact matches_markBadReplica others h volume replica
  | getSettings => exact matches_getSettings others h
  | setSettings x => exact matches_setSettings others h x

end Agent

end HostAgent
