import HostAgent.Proofs.Agent.Turnover

namespace HostAgent.Agent

/-!
# Updates that do not see a deletion

An update looks whether the volume is there, and then writes it on no condition. So it says that the
volume is missing, and has written nothing, or it has found the volume and written it later. Only a
deletion between the two can make it write a volume that is gone, and nothing else but a creation
brings a deleted volume back.
-/

open Store Interleaving

/-! ## Updates -/

namespace Update

variable {a : Agent} {v : Volume}

def missing (v : Volume) : AgentError :=
  .context s!"cannot update volume {v.name}" (.notFound "volume" v.name)

def writing (a : Agent) (v : Volume) : Task (Store.interface.sum own) (Result Unit) :=
  .ask (.inl (.set (a.space.volumeKey v.name) (Record.text v))) fun b =>
    .done ((Space.dropIndex b).mapError (.store "update" (a.space.volumeKey v.name)))

/-- What an update does with what it has read. -/
def afterLookup (a : Agent) (v : Volume) :
    Except Store.Error (Option Volume) → Task (Store.interface.sum own) (Result Unit)
  | .error e => .done (.error (.store "get" (a.space.volumeKey v.name) e))
  | .ok none => .done (.error (missing v))
  | .ok (some _) => writing a v

theorem beside_update (a : Agent) (v : Volume) :
    beside (a.updateVolume v).run =
      .ask (.inl (.get (a.space.volumeKey v.name))) fun b => afterLookup a v (Space.found b) := by
  have hget : ((a.space.getVolume v.name).run.inl : Task (Store.interface.sum own) _) =
      .ask (.inl (.get (a.space.volumeKey v.name))) fun b => .done (Space.found b) := by
    rw [Space.getVolume, Space.fetch_map_run]
    rfl
  have hset : beside (ask "update" (a.space.volumeKey v.name) (a.space.setVolume v)).run =
      writing a v := by
    rw [beside_ask, Space.setVolume, Space.put_run]
    rfl
  rw [updateVolume, ExceptT.run_bind]
  change beside (Task.bind (ask _ _ _).run _) = _
  rw [beside_bind, beside_ask, hget, Task.bind_assoc]
  refine congrArg (Task.ask (I := Store.interface.sum own)
    (.inl (.get (a.space.volumeKey v.name)))) (funext fun b => ?_)
  change Task.bind (.done (Space.found b)) _ = _
  rw [Task.done_bind]
  rcases Space.found (α := Volume) b with e | _ | u
  · rfl
  · rfl
  · exact hset

/-- How far an update can have come, and by which exchanges. -/
inductive Course (a : Agent) (v : Volume) : List (Exchange (Store.interface.sum own)) →
    Task (Store.interface.sum own) (Result Unit) → Prop
  | start : Course a v [] (beside (a.updateVolume v).run)
  | failed {b : Except Store.Error (Option Entry)} {e : Store.Error}
      (h : Space.found (α := Volume) b = .error e) :
      Course a v [⟨.inl (.get (a.space.volumeKey v.name)), b⟩]
        (.done (.error (.store "get" (a.space.volumeKey v.name) e)))
  | absent : Course a v [⟨.inl (.get (a.space.volumeKey v.name)),
      (.ok none : Except Store.Error (Option Entry))⟩] (.done (.error (missing v)))
  | found {e : Entry} {u : Volume} (h : Space.decode e.value = .ok u) :
      Course a v [⟨.inl (.get (a.space.volumeKey v.name)),
        (.ok (some e) : Except Store.Error (Option Entry))⟩] (writing a v)
  | written {e : Entry} {u : Volume} (h : Space.decode e.value = .ok u)
      (b : Except Store.Error Nat) :
      Course a v [⟨.inl (.get (a.space.volumeKey v.name)),
          (.ok (some e) : Except Store.Error (Option Entry))⟩,
        ⟨.inl (.set (a.space.volumeKey v.name) (Record.text v)), b⟩]
        (.done ((Space.dropIndex b).mapError (.store "update" (a.space.volumeKey v.name))))

theorem course_of_path {l : List (Exchange (Store.interface.sum own))}
    {u : Task (Store.interface.sum own) (Result Unit)}
    (h : Task.Path (beside (a.updateVolume v).run) l u) : Course a v l u := by
  rw [beside_update] at h
  rcases Task.path_ask_iff.mp h with ⟨rfl, rfl⟩ | ⟨b, l, rfl, hread⟩
  · rw [← beside_update]
    exact .start
  cases hb : Space.found (α := Volume) b with
  | error e =>
    rw [hb] at hread
    obtain ⟨rfl, rfl⟩ := Task.path_done_iff.mp hread
    exact .failed hb
  | ok o =>
    cases o with
    | none =>
      rw [hb] at hread
      obtain ⟨rfl, rfl⟩ := Task.path_done_iff.mp hread
      obtain rfl := Space.found_eq_none_iff.mp hb
      exact .absent
    | some w =>
      rw [hb] at hread
      obtain ⟨e, rfl, hw⟩ := Space.found_eq_some_iff.mp hb
      rcases Task.path_one_iff.mp hread with ⟨rfl, rfl⟩ | ⟨b, rfl, rfl⟩
      · exact .found hw
      · exact .written hw b

/-- An update has written nothing, or it has found the volume and has just written it. -/
theorem Course.unwritten_or_written {l : List (Exchange (Store.interface.sum own))}
    {w : Task (Store.interface.sum own) (Result Unit)} (h : Course a v l w) :
    Unwritten l ∨ ∃ e b, l = [⟨.inl (.get (a.space.volumeKey v.name)),
      (.ok (some e) : Except Store.Error (Option Entry))⟩] ++
      [⟨.inl (.set (a.space.volumeKey v.name) (Record.text v)), (b : Except Store.Error Nat)⟩] := by
  cases h with
  | written h b => exact .inr ⟨_, b, rfl⟩
  | start | failed h | absent | found h =>
    refine .inl ?_
    simp [Unwritten, written?, Call.written?]

end Update

/-! ## Workers -/

/-- What is asked of an agent for a volume. -/
inductive Job where
  | create (v : Volume)
  | update (v : Volume)
  | delete (name : String)

namespace Job

def operation : Job → Operation
  | .create v => .createVolume v
  | .update v => .updateVolume v
  | .delete name => .deleteVolume name

def volume : Job → String
  | .create v | .update v => v.name
  | .delete name => name

/-- What becomes of the record under the key of a volume by a job that writes it. -/
def Effect : Job → Content → Content → Prop
  | .create v, old, new => old = none ∧ new = some (.ok v)
  | .update v, _, new => new = some (.ok v)
  | .delete _, old, new => old.isSome = true ∧ new = none

end Job

structure Worker where
  agent : Agent
  job : Job

namespace Worker

variable {w : Worker}

def key (w : Worker) : String := w.agent.space.volumeKey w.job.volume

def task (w : Worker) : Task (Store.interface.sum own) Report :=
  (beside (w.job.operation.op w.agent).run).bind fun r => .done ⟨w.job.operation, r⟩

/-- Jobs without a reading are single calls on the store. -/
theorem task_deed {d : Deed} (h : w.job.operation = d.operation) :
    w.task = (d.call w.agent).task.bind fun r => .done ⟨d.operation, d.conclude w.agent r⟩ := by
  rw [task, h, d.beside_operation]
  exact Task.bind_assoc _ _ _

end Worker

variable {ι : Type} {workers : ι → Worker} {i j : ι}

def employed (workers : ι → Worker) (m : Memory) : Situation Memory.shared own ι Report :=
  ⟨m, fun i => (workers i).task⟩

/-- The step deletes the record under a key. -/
def Deletes (workers : ι → Worker) (key : String) (mo : Moment Memory.shared own ι) : Prop :=
  ∃ j name, writer? key mo = some j ∧ (workers j).job = .delete name

/-- The step is a reading that finds something under a key. -/
def Finds (i : ι) (key : String) (mo : Moment Memory.shared own ι) : Prop :=
  ∃ e, mo.act = .exchange i ⟨.inl (.get key), (.ok (some e) : Except Store.Error (Option Entry))⟩

/-- A task has found the record under a key in the first steps, and writes it in the later ones. -/
def Straddles (i : ι) (key : String) (past rest : List (Moment Memory.shared own ι)) : Prop :=
  (∃ mo ∈ past, Finds i key mo) ∧ ∃ mo ∈ rest, writer? key mo = some i

section Runs

variable {m : Memory} {t u : Situation Memory.shared own ι Report}
variable {mo : Moment Memory.shared own ι} {tr past rest : List (Moment Memory.shared own ι)}
variable {key : String} {v : Volume}

theorem Finds.writer?_eq_none (h : Finds i key mo) (k : String) : writer? k mo = none := by
  obtain ⟨e, hact⟩ := h
  rw [writer?, hact]
  rfl

theorem Straddles.of_concat (h : Straddles i key (past ++ [mo]) rest)
    (hw : writer? key mo = some j) : Straddles i key past rest := by
  obtain ⟨⟨read, hread, hfinds⟩, hwrite⟩ := h
  refine ⟨⟨read, ?_, hfinds⟩, hwrite⟩
  rcases List.mem_append.mp hread with hread | hread
  · exact hread
  · -- Whoever only finds the record writes nothing in the same step.
    rw [List.mem_singleton.mp hread] at hfinds
    rw [hfinds.writer?_eq_none] at hw
    cases hw

variable [DecidableEq ι]

theorem Finds.stored_ne_none (h : Finds i key mo) (hs : Step t mo u) :
    Store.stored t.state key ≠ none := by
  obtain ⟨e, hact⟩ := h
  have hget : Memory.get? mo.before key = some e :=
    Except.ok.inj (congrArg Prod.fst (hs.answer_eq hact))
  rw [hs.before_eq] at hget
  rw [stored_of_get?_eq_some hget rfl]
  exact Option.some_ne_none _

/-! ## One step -/

/-- How far a worker at an update has come. -/
theorem course_of_run (h : Run (employed workers m) tr t) (hi : (workers i).job = .update v) :
    ∃ w, t.tasks i = w.bind (fun r => .done ⟨.updateVolume v, r⟩) ∧
      Update.Course (workers i).agent v (exchanges i tr) w := by
  have hpath := h.path i
  have htask : (employed workers m).tasks i = (beside ((workers i).agent.updateVolume v).run).bind
      fun r => .done ⟨.updateVolume v, r⟩ := by
    change (workers i).task = _
    rw [Worker.task, hi]
    rfl
  rw [htask] at hpath
  obtain ⟨w, hw, hpath⟩ := hpath.of_map
  exact ⟨w, hw, Update.course_of_path hpath⟩

/-- An update that writes has found something before, and is done. -/
theorem update_of_writer? (h : Run (employed workers m) tr t) (hs : Step t mo u)
    (hw : writer? key mo = some i) (hi : (workers i).job = .update v) :
    (workers i).key = key ∧ Store.stored u.state key = some (.ok v) ∧
      ∃ read ∈ tr, Finds i key read := by
  obtain ⟨x, hact, hkey⟩ := writer?_eq_some_iff.mp hw
  obtain ⟨w, -, hcourse⟩ := course_of_run (h.concat hs) hi
  rw [exchanges_concat, Act.of?_eq_some_iff.mpr hact, Option.toList_some] at hcourse
  rcases hcourse.unwritten_or_written with hnone | ⟨e, b, hl⟩
  · rw [hnone x (by simp)] at hkey
    cases hkey
  obtain ⟨htr, hx⟩ := List.append_inj' hl rfl
  obtain rfl := List.singleton_inj.mp hx
  obtain ⟨read, hread, hfound⟩ := mem_exchanges.mp (htr ▸ List.mem_singleton.mpr rfl)
  have hanswer : Memory.step (.set _ _) mo.before = (b, mo.after) := hs.answer_eq hact
  obtain ⟨rfl, hafter⟩ := Prod.mk.inj hanswer
  obtain rfl := Option.some.inj hkey
  refine ⟨?_, ?_, read, hread, e, hfound⟩
  · rw [Worker.key, hi]
    rfl
  · rw [← hs.after_eq, ← hafter]
    exact stored_write _ _ v

/-- Whoever writes a record is at a job for its volume, and its effect is known. -/
theorem effect_of_worker (hm : m.Bounded) (h : Run (employed workers m) tr t) (hs : Step t mo u)
    (hw : writer? key mo = some i) :
    (workers i).key = key ∧
      (workers i).job.Effect (Store.stored t.state key) (Store.stored u.state key) := by
  rw [Worker.key]
  cases hi : (workers i).job with
  | create v =>
    have htask := Worker.task_deed (d := .create v) (congrArg Job.operation hi)
    exact effect_of_writer? htask hm h hs hw
  | update v =>
    obtain ⟨hkey, hnew, -⟩ := update_of_writer? h hs hw hi
    rw [Worker.key, hi] at hkey
    exact ⟨hkey, hnew⟩
  | delete name =>
    have htask := Worker.task_deed (d := .delete name) (congrArg Job.operation hi)
    exact erased_of_writer? htask h hs hw

/-- What is stored under a key, if anything is, is a volume. -/
def Legible (m : Memory) (key : String) : Prop := ∀ e, Store.stored m key ≠ some (.error e)

theorem Legible.found_ne_error (h : Legible m key) (e : Store.Error) :
    Space.found (α := Volume) (.ok (m.get? key)) ≠ .error e := by
  cases hget : m.get? key with
  | none =>
    intro hfound
    cases hfound
  | some entry =>
    have hlegible := h
    rw [Legible, Store.stored, hget] at hlegible
    cases hdecode : Space.decode (α := Volume) entry.value with
    | error f => exact absurd (congrArg some hdecode) (hlegible f)
    | ok u =>
      rw [Space.found, Space.fetched, hdecode]
      intro hfound
      cases hfound

theorem legible_of_effect {job : Job} {old new : Content} (h : job.Effect old new)
    (e : Store.Error) :
    new ≠ some (.error e) := by
  cases job with
  | create v =>
    obtain ⟨-, rfl⟩ := h
    simp
  | update v =>
    obtain rfl : new = _ := h
    simp
  | delete name =>
    obtain ⟨-, rfl⟩ := h
    simp

theorem legible_of_run (hm : m.Bounded) (hkey : Legible m key) (h : Run (employed workers m) tr t) :
    Legible t.state key := by
  induction h with
  | nil => exact hkey
  | @concat tr mo t u h hs ih =>
    intro e
    cases hw : writer? key mo with
    | none =>
      rw [stored_of_writer?_eq_none hs hw]
      exact ih e
    | some i => exact legible_of_effect (effect_of_worker hm h hs hw).2 e

/-! ## Runs -/

/-- An update that is done has found the volume and written it later, or it has found nothing, says
so, and has changed nothing. -/
theorem written_or_missing (hm : m.Bounded) (h : Run (employed workers m) tr t)
    (hi : (workers i).job = .update v) (hkey : Legible m (workers i).key) {r : Report}
    (hr : t.tasks i = .done r) :
    (r = ⟨.updateVolume v, .ok ()⟩ ∧ ∃ past read mid write rest,
      tr = past ++ read :: (mid ++ write :: rest) ∧ Finds i (workers i).key read ∧
        writer? (workers i).key write = some i) ∨
      r = ⟨.updateVolume v, .error (Update.missing v)⟩ ∧ Idle i tr := by
  have hname : (workers i).key = (workers i).agent.space.volumeKey v.name := by
    rw [Worker.key, hi]
    rfl
  rw [hname] at hkey ⊢
  obtain ⟨w, hw, hcourse⟩ := course_of_run h hi
  rw [hr] at hw
  generalize hl : exchanges i tr = l at hcourse
  cases hcourse with
  | start =>
    rw [Update.beside_update] at hw
    cases hw
  | @failed b e hb =>
    obtain ⟨mo, hmo, hact⟩ := mem_exchanges.mp (hl ▸ List.mem_singleton.mpr rfl)
    obtain ⟨past, rest, t₁, t₂, -, hpast, hs, -⟩ := h.exists_step hmo
    have hanswer : Memory.step (.get _) mo.before = (b, mo.after) := hs.answer_eq hact
    obtain ⟨rfl, -⟩ := Prod.mk.inj hanswer
    rw [hs.before_eq] at hb
    exact absurd hb ((legible_of_run hm hkey hpast).found_ne_error e)
  | absent =>
    refine .inr ⟨Task.done.inj hw, fun mo hmo x hact => after_eq_of_unwritten h ?_ hmo hact⟩
    rw [hl]
    simp [Unwritten, written?, Call.written?]
  | found hu => cases hw
  | @written e u hu b =>
    obtain ⟨past, read, later, rfl, hread, -, hlater⟩ := exists_split (p := []) hl
    obtain ⟨mid, write, rest, rfl, hwrite, -, -⟩ := exists_split (p := []) hlater
    obtain ⟨q, q', t₁, t₂, -, -, hs, -⟩ := h.exists_step (m := write) (by simp)
    have hanswer : Memory.step (.set _ _) write.before = (b, write.after) := hs.answer_eq hwrite
    obtain ⟨rfl, -⟩ := Prod.mk.inj hanswer
    exact .inl ⟨Task.done.inj hw, past, read, mid, write, rest, rfl, ⟨e, hread⟩,
      writer?_eq_some_iff.mpr ⟨_, hwrite, rfl⟩⟩

/-- A record that is there stays until it is deleted. -/
theorem stored_or_deleted (hm : m.Bounded) (hpast : Run (employed workers m) past t)
    (hthere : (Store.stored t.state key).isSome = true) (h : Run t rest u) :
    (Store.stored u.state key).isSome = true ∨ ∃ del ∈ rest, Deletes workers key del := by
  induction h with
  | nil => exact .inl hthere
  | @concat rest mo u w h hs ih =>
    rcases ih with hu | ⟨del, hdel, hdeletes⟩
    · cases hw : writer? key mo with
      | none =>
        rw [stored_of_writer?_eq_none hs hw]
        exact .inl hu
      | some i =>
        have heffect := (effect_of_worker hm (hpast.append h) hs hw).2
        cases hi : (workers i).job with
        | create v =>
          rw [hi] at heffect
          exact .inl (by rw [heffect.2]; rfl)
        | update v =>
          rw [hi] at heffect
          exact .inl (congrArg Option.isSome heffect)
        | delete name => exact .inr ⟨mo, by simp, i, name, hw, hi⟩
    · exact .inr ⟨del, List.mem_append_left _ hdel, hdeletes⟩

/-- After a deletion the record is absent and nobody finds it, or it was created since, or an update
that had found it before has written it. The first of these is kept by every step but a creation and
such a writing. -/
theorem gone_or_restored (hm : m.Bounded) (hpast : Run (employed workers m) past t)
    (hgone : Store.stored t.state key = none) (h : Run t rest u) :
    (Store.stored u.state key = none ∧ ∀ mo ∈ rest, ∀ i, ¬ Finds i key mo) ∨
      (∃ i v, (workers i).job = .create v ∧ i ∈ writers key rest) ∨
      ∃ i v, (workers i).job = .update v ∧ Straddles i key past rest := by
  induction h with
  | nil => exact .inl ⟨hgone, by simp⟩
  | @concat rest mo u w h hs ih =>
    rcases ih with ⟨hu, hnone⟩ | ⟨i, v, hi, hwrote⟩ | ⟨i, v, hi, hfound, mo', hmo', hw⟩
    · cases hw : writer? key mo with
      | none =>
        refine .inl ⟨(stored_of_writer?_eq_none hs hw).trans hu, ?_⟩
        intro mo' hmo' i hfinds
        rcases List.mem_append.mp hmo' with hmo' | hmo'
        · exact hnone mo' hmo' i hfinds
        · rw [List.mem_singleton.mp hmo'] at hfinds
          exact hfinds.stored_ne_none hs hu
      | some i =>
        cases hi : (workers i).job with
        | create v =>
          refine .inr (.inl ⟨i, v, hi, ?_⟩)
          simp [writers_concat, hw]
        | update v =>
          obtain ⟨-, -, read, hread, hfinds⟩ := update_of_writer? (hpast.append h) hs hw hi
          rcases List.mem_append.mp hread with hread | hread
          · exact .inr (.inr ⟨i, v, hi, ⟨read, hread, hfinds⟩, mo, by simp, hw⟩)
          · exact absurd hfinds (hnone read hread i)
        | delete name =>
          have heffect := (effect_of_worker hm (hpast.append h) hs hw).2
          rw [hi, hu] at heffect
          cases heffect.1
    · refine .inr (.inl ⟨i, v, hi, ?_⟩)
      rw [writers_concat]
      exact List.mem_append_left _ hwrote
    · exact .inr (.inr ⟨i, v, hi, hfound, mo', List.mem_append_left _ hmo', hw⟩)

/-- An update that has found its volume writes its own record over the one that is there, unless the
volume was deleted since. -/
theorem stored_of_found {read write : Moment Memory.shared own ι}
    {mid : List (Moment Memory.shared own ι)} (hm : m.Bounded)
    (h : Run (employed workers m) (past ++ read :: (mid ++ write :: rest)) t)
    (hi : (workers i).job = .update v) (hfinds : Finds i (workers i).key read)
    (hwrite : writer? (workers i).key write = some i) :
    Store.stored write.after (workers i).key = some (.ok v) ∧
      ((Store.stored write.before (workers i).key).isSome = true ∨
        ∃ del ∈ mid, Deletes workers (workers i).key del) := by
  obtain ⟨t₁, t₂, hpast, hread, hrun⟩ := h.of_append_cons
  obtain ⟨t₃, t₄, hmid, hs, -⟩ := hrun.of_append_cons
  have hthere : (Store.stored t₂.state (workers i).key).isSome = true := by
    rw [stored_of_writer?_eq_none hread (hfinds.writer?_eq_none _)]
    exact Option.isSome_iff_ne_none.mpr (hfinds.stored_ne_none hread)
  constructor
  · rw [hs.after_eq]
    exact (update_of_writer? ((hpast.concat hread).append hmid) hs hwrite hi).2.1
  · rw [hs.before_eq]
    exact stored_or_deleted hm (hpast.concat hread) hthere hmid

/-- A deletion that has succeeded took a record away in one of its steps. -/
theorem exists_deletion (h : Run (employed workers m) tr t) {name : String}
    (hj : (workers j).job = .delete name)
    (hdone : t.tasks j = .done ⟨.deleteVolume name, .ok ()⟩) :
    ∃ del ∈ tr, writer? (workers j).key del = some j := by
  have htask := Worker.task_deed (d := .delete name) (congrArg Job.operation hj)
  have hwriters : j ∈ writers (workers j).key tr := by
    rw [mem_writers_of_deed htask h, Worker.key, hj]
    exact ⟨rfl, (), hdone⟩
  exact List.mem_filterMap.mp hwriters

theorem created_of_mem_writers (h : Run (employed workers m) tr t)
    (hi : (workers i).job = .create v) (hwrote : i ∈ writers key tr) :
    ∃ x, t.tasks i = .done ⟨.createVolume v, .ok x⟩ := by
  have htask := Worker.task_deed (d := .create v) (congrArg Job.operation hi)
  exact ((mem_writers_of_deed htask h).mp hwrote).2

/-- In every interleaving of creations, updates and deletions: an update that is done, of a volume
whose record at first is none or legible, has found the volume and then written it, and the volume
was there at that moment unless it was deleted between the two; or it says that the volume is
missing and has changed nothing. A deletion that has succeeded took the volume away, and it stays
away until a creation succeeds, unless an update that had found the volume before the deletion
writes it after. -/
theorem updates_write_what_was_found (hm : m.Reachable) (h : Run (employed workers m) tr t) :
    (∀ i v, (workers i).job = .update v → Legible m (workers i).key → ∀ r, t.tasks i = .done r →
      (r = ⟨.updateVolume v, .ok ()⟩ ∧ ∃ past read mid write rest,
        tr = past ++ read :: (mid ++ write :: rest) ∧
          Finds i (workers i).key read ∧ writer? (workers i).key write = some i ∧
          Store.stored write.after (workers i).key = some (.ok v) ∧
          ((Store.stored write.before (workers i).key).isSome = true ∨
            ∃ del ∈ mid, Deletes workers (workers i).key del)) ∨
        r = ⟨.updateVolume v, .error (Update.missing v)⟩ ∧ Idle i tr) ∧
    ∀ j name, (workers j).job = .delete name →
      t.tasks j = .done ⟨.deleteVolume name, .ok ()⟩ →
      ∃ past del rest, tr = past ++ del :: rest ∧ writer? (workers j).key del = some j ∧
        (Store.stored del.before (workers j).key).isSome = true ∧
        Store.stored del.after (workers j).key = none ∧
        (Store.stored t.state (workers j).key = none ∨
          (∃ i v, (workers i).job = .create v ∧ i ∈ writers (workers j).key rest ∧
            ∃ x, t.tasks i = .done ⟨.createVolume v, .ok x⟩) ∨
          ∃ i v, (workers i).job = .update v ∧ Straddles i (workers j).key past rest) := by
  constructor
  · intro i v hi hlegible r hr
    rcases written_or_missing hm.bounded h hi hlegible hr with
      ⟨rfl, past, read, mid, write, rest, rfl, hfinds, hwrite⟩ | hmissing
    · exact .inl ⟨rfl, past, read, mid, write, rest, rfl, hfinds, hwrite,
        stored_of_found hm.bounded h hi hfinds hwrite⟩
    · exact .inr hmissing
  · intro j name hj hdone
    obtain ⟨del, hdel, hw⟩ := exists_deletion h hj hdone
    obtain ⟨past, rest, t₁, t₂, rfl, hpast, hs, hrest⟩ := h.exists_step hdel
    have heffect := (effect_of_worker hm.bounded hpast hs hw).2
    rw [hj] at heffect
    refine ⟨past, del, rest, rfl, hw, ?_, ?_, ?_⟩
    · rw [hs.before_eq]
      exact heffect.1
    · rw [hs.after_eq]
      exact heffect.2
    · rcases gone_or_restored hm.bounded (hpast.concat hs) heffect.2 hrest with
        ⟨hgone, -⟩ | ⟨i, v, hi, hwrote⟩ | ⟨i, v, hi, hstraddles⟩
      · exact .inl hgone
      · have hmem : i ∈ writers (workers j).key (past ++ del :: rest) := by
          rw [List.append_cons, writers, List.filterMap_append]
          exact List.mem_append_right _ hwrote
        exact .inr (.inl ⟨i, v, hi, hwrote, created_of_mem_writers h hi hmem⟩)
      · exact .inr (.inr ⟨i, v, hi, hstraddles.of_concat hw⟩)

end Runs

def larger : Volume := { twoReplicas with size := 2048 }

/-- One is to update a volume that the other one deletes. -/
def overtaken (b : Bool) : Worker where
  agent := ⟨default, ⟨""⟩, default, "engine"⟩
  job := if b then .delete "vol" else .update larger

theorem legible_oneVolume : Legible oneVolume "/volumes/vol" := by
  intro e he
  rw [oneVolume, stored_write] at he
  cases he

/-- The update finds the volume, the deletion takes it away, and the update writes it. -/
theorem run_overtaken :
    ∃ past write t, Run (employed overtaken oneVolume) (past ++ [write]) t ∧
      t.tasks false = .done ⟨.updateVolume larger, .ok ()⟩ ∧
      t.tasks true = .done ⟨.deleteVolume "vol", .ok ()⟩ ∧
      writer? "/volumes/vol" write = some false ∧
      Store.stored write.before "/volumes/vol" = none ∧
      Store.stored t.state "/volumes/vol" = some (.ok larger) := by
  have hupdate : (overtaken false).task = _ :=
    congrArg (Task.bind · _) (Update.beside_update (overtaken false).agent larger)
  have hdelete : (overtaken true).task = _ := (Worker.task_deed (d := .delete "vol") rfl).trans
    (congrArg (Task.bind · _) (ClientCall.task_delete ⟨""⟩ "vol"))
  have hfound : Space.found (α := Volume) (.ok (some ⟨Record.text twoReplicas, 1⟩)) =
      .ok (some twoReplicas) := Space.found_eq_some_iff.mpr ⟨_, rfl, Space.decode_text _⟩
  let m := oneVolume.erase "/volumes/vol"
  have ha₁ : Memory.step (.get "/volumes/vol") oneVolume =
      (.ok (some ⟨Record.text twoReplicas, 1⟩), oneVolume) := by simp [Memory.step, get?_oneVolume]
  have ha₂ : Memory.step (.delete "/volumes/vol") oneVolume = (.ok true, m) := by
    simp [Memory.step_delete, get?_oneVolume, m]
  obtain ⟨t₁, h₁, hs₁, hf₁, ho₁⟩ :=
    Run.exists_shared (.nil (s := employed overtaken oneVolume)) (i := false) hupdate ha₁
  have hf₁' := hf₁.trans (congrArg (fun r => (Update.afterLookup _ larger r).bind _) hfound)
  obtain ⟨t₂, h₂, hs₂, hf₂, ho₂⟩ := h₁.exists_shared ((ho₁ true (by decide)).trans hdelete)
    ((congrArg (Memory.step _) hs₁).trans ha₂)
  obtain ⟨t₃, h₃, hs₃, hf₃, ho₃⟩ := h₂.exists_shared ((ho₂ false (by decide)).trans hf₁')
    (congrArg (Memory.step _) hs₂)
  refine ⟨_, _, t₃, h₃, hf₃, (ho₃ true (by decide)).trans hf₂, rfl, ?_, ?_⟩
  · change Store.stored t₂.state _ = _
    rw [hs₂]
    exact stored_erase _ _
  · rw [hs₃]
    exact stored_write _ _ _

theorem updates_write_what_was_found_overtaken :
    oneVolume.Reachable ∧ Legible oneVolume "/volumes/vol" ∧
      ∃ tr t, Run (employed overtaken oneVolume) tr t ∧
        (∃ past read mid write rest, tr = past ++ read :: (mid ++ write :: rest) ∧
          Finds false "/volumes/vol" read ∧ writer? "/volumes/vol" write = some false ∧
          Store.stored write.after "/volumes/vol" = some (.ok larger) ∧
          ((Store.stored write.before "/volumes/vol").isSome = true ∨
            ∃ del ∈ mid, Deletes overtaken "/volumes/vol" del)) ∧
        ∃ past del rest, tr = past ++ del :: rest ∧
          writer? "/volumes/vol" del = some true ∧
          Store.stored del.after "/volumes/vol" = none ∧
          (Store.stored t.state "/volumes/vol" = none ∨
            (∃ i v, (overtaken i).job = .create v ∧ i ∈ writers "/volumes/vol" rest ∧
              ∃ x, t.tasks i = .done ⟨.createVolume v, .ok x⟩) ∨
            ∃ i v, (overtaken i).job = .update v ∧ Straddles i "/volumes/vol" past rest) := by
  obtain ⟨past, write, t, h, hupdated, hdeleted, -⟩ := run_overtaken
  obtain ⟨hupdates, hdeletions⟩ := updates_write_what_was_found reachable_oneVolume h
  refine ⟨reachable_oneVolume, legible_oneVolume, _, t, h, ?_, ?_⟩
  · rcases hupdates false larger rfl legible_oneVolume _ hupdated with ⟨-, hfound⟩ | ⟨hmissing, -⟩
    · exact hfound
    · cases hmissing
  · obtain ⟨before, del, rest, htr, hw, -, hgone, hlater⟩ := hdeletions true "vol" rfl hdeleted
    exact ⟨before, del, rest, htr, hw, hgone, hlater⟩

/-- An update succeeds although the volume is gone when it writes, and a volume that was deleted is
there again although nobody creates one. -/
theorem deleted_volume_written_back :
    (∀ b v, (overtaken b).job ≠ .create v) ∧
      ∃ past write t, Run (employed overtaken oneVolume) (past ++ [write]) t ∧
        t.tasks false = .done ⟨.updateVolume larger, .ok ()⟩ ∧
        t.tasks true = .done ⟨.deleteVolume "vol", .ok ()⟩ ∧
        writer? "/volumes/vol" write = some false ∧
        Store.stored write.before "/volumes/vol" = none ∧
        Store.stored t.state "/volumes/vol" = some (.ok larger) := by
  refine ⟨?_, run_overtaken⟩
  rintro (_ | _) v hjob
  · cases hjob
  · cases hjob

end HostAgent.Agent
