import HostAgent.Proofs.Agent.Atomic
import HostAgent.Proofs.Agent.Marks
import Mathlib.Data.List.Chain

namespace HostAgent.Agent

/-!
# Volumes that come and go

Agents create, delete and mark volumes by the side of each other. Whoever creates a volume finds its
name free, whoever deletes one finds it there, and a mark stamps the very record that is stored when
it writes. So creations and deletions take turns, and what is stored is the record that was created
last, with other stamps at most.
-/

open Store Interleaving

/-! ## Callers -/

/-- What an agent is asked for: to create, delete or mark a volume, or to read records. -/
inductive Errand where
  | deed (d : Deed)
  | reading (o : Operation) (h : o.isReading = true)

def Errand.operation : Errand → Operation
  | .deed d => d.operation
  | .reading o _ => o

/-- What is stored under the key of a volume, if anything is. -/
abbrev Content := Option (Except Store.Error Volume)

/-- An operation and what it came to. -/
abbrev Report := (o : Operation) × Result o.Value

structure Caller where
  agent : Agent
  errand : Errand

namespace Caller

def task (c : Caller) : Task (Store.interface.sum own) Report :=
  (beside (c.errand.operation.op c.agent).run).bind fun r => .done ⟨c.errand.operation, r⟩

theorem task_deed {c : Caller} {d : Deed} (h : c.errand = .deed d) :
    c.task = (d.call c.agent).task.bind fun r => .done ⟨d.operation, d.conclude c.agent r⟩ := by
  rw [task, h]
  change (beside (d.operation.op c.agent).run).bind _ = _
  rw [d.beside_operation]
  exact Task.bind_assoc _ _ _

theorem neverWrites_task {c : Caller} {o : Operation} {ho : o.isReading = true}
    (h : c.errand = .reading o ho) : NeverWrites c.task := by
  rw [task, h]
  exact (neverWrites_beside (asks_reading c.agent ho)).map _

/-- Whether a caller is to create a volume or to delete one, if either. -/
def turn? (c : Caller) : Option Bool :=
  match c.errand with
  | .deed (.create _) => some true
  | .deed (.delete _) => some false
  | _ => none

theorem turn?_eq_true_iff {c : Caller} :
    c.turn? = some true ↔ ∃ v, c.errand = .deed (.create v) := by
  rw [turn?]
  split <;> simp_all

theorem turn?_eq_false_iff {c : Caller} :
    c.turn? = some false ↔ ∃ name, c.errand = .deed (.delete name) := by
  rw [turn?]
  split <;> simp_all

/-- What a caller makes of a record but for stamps. -/
def leave (c : Caller) (old : Content) : Content :=
  match c.errand with
  | .deed (.create v) => some (.ok v)
  | .deed (.delete _) => none
  | _ => old

end Caller

variable {ι : Type} {callers : ι → Caller} {l : List ι} {i : ι}
variable {old now : Content}

/-! ## The life of a record -/

/-- What becomes of the record under a key by callers who write it one after another. -/
inductive Lives (callers : ι → Caller) : List ι → Content → Content → Prop
  | nil (old : Content) : Lives callers [] old old
  | created {l : List ι} {i : ι} {v : Volume} {old : Content}
      (h : Lives callers l old none) (hi : (callers i).errand = .deed (.create v)) :
      Lives callers (l ++ [i]) old (some (.ok v))
  | deleted {l : List ι} {i : ι} {name : String} {old : Content}
      {r : Except Store.Error Volume} (h : Lives callers l old (some r))
      (hi : (callers i).errand = .deed (.delete name)) : Lives callers (l ++ [i]) old none
  | marked {l : List ι} {i : ι} {volume : String} {replica : Replica} {u : Volume}
      {old : Content} (h : Lives callers l old (some (.ok u)))
      (hi : (callers i).errand = .deed (.mark volume replica)) (now : Time.Timestamp) :
      Lives callers (l ++ [i]) old (some (.ok (u.struck replica.inst.name now)))

/-- Whether there was a record at first, and whether each creation or deletion left one. -/
def turns (callers : ι → Caller) (old : Content) (l : List ι) : List Bool :=
  old.isSome :: l.filterMap fun i => (callers i).turn?

/-- The record that was created last, if it was not deleted since. -/
def origin (callers : ι → Caller) (old : Content) (l : List ι) : Content :=
  l.foldl (fun r i => (callers i).leave r) old

/-- One record is another one with other stamps at most. -/
inductive Descends : Content → Content → Prop
  | refl (r : Content) : Descends r r
  | stamps {v u : Volume} (h : v.Restamps u) : Descends (some (.ok v)) (some (.ok u))

theorem Descends.struck {r : Content} {u : Volume} (h : Descends r (some (.ok u)))
    (name : String) (now : Time.Timestamp) : Descends r (some (.ok (u.struck name now))) := by
  cases h with
  | refl => exact .stamps (u.restamps_struck name now)
  | stamps h => exact .stamps (h.trans (u.restamps_struck name now))

theorem turns_concat (callers : ι → Caller) (old : Content) (l : List ι) (i : ι) :
    turns callers old (l ++ [i]) = turns callers old l ++ (callers i).turn?.toList := by
  rw [turns, List.filterMap_append, ← List.cons_append]
  congr 1

theorem origin_concat (callers : ι → Caller) (old : Content) (l : List ι) (i : ι) :
    origin callers old (l ++ [i]) = (callers i).leave (origin callers old l) :=
  List.foldl_concat ..

theorem isChain_concat {l : List Bool} {b : Bool} (h : l.IsChain (· ≠ ·))
    (hlast : l.getLast? = some b) : (l ++ [!b]).IsChain (· ≠ ·) := by
  refine List.isChain_append.mpr ⟨h, List.isChain_singleton _, ?_⟩
  intro x hx y hy
  rw [hlast] at hx
  cases hx
  cases hy
  exact (Bool.not_ne_self b).symm

/-- Creations and deletions take turns, and the last of them tells whether there is a record. -/
theorem Lives.alternate (h : Lives callers l old now) :
    (turns callers old l).IsChain (· ≠ ·) ∧ (turns callers old l).getLast? = some now.isSome := by
  induction h with
  | nil => exact ⟨List.isChain_singleton _, rfl⟩
  | created h hi ih =>
    rw [turns_concat, Caller.turn?, hi]
    exact ⟨isChain_concat ih.1 ih.2, List.getLast?_concat⟩
  | deleted h hi ih =>
    rw [turns_concat, Caller.turn?, hi]
    exact ⟨isChain_concat ih.1 ih.2, List.getLast?_concat⟩
  | marked h hi now ih =>
    rw [turns_concat, Caller.turn?, hi]
    simpa using ih

theorem Lives.descends (h : Lives callers l old now) : Descends (origin callers old l) now := by
  induction h with
  | nil old => exact .refl old
  | created h hi ih =>
    rw [origin_concat, Caller.leave, hi]
    exact .refl _
  | deleted h hi ih =>
    rw [origin_concat, Caller.leave, hi]
    exact .refl _
  | marked h hi now ih =>
    rw [origin_concat, Caller.leave, hi]
    exact ih.struck _ now

/-- Where there was no record at first and none was deleted, nobody has created one as long as there
is none, and exactly one has as soon as there is one. -/
theorem Lives.one_creation (h : Lives callers l old now) (hold : old = none)
    (hkept : ∀ i ∈ l, (callers i).turn? ≠ some false) :
    (now = none → ∀ i ∈ l, (callers i).turn? ≠ some true) ∧
      (now.isSome → ∃! i, i ∈ l ∧ (callers i).turn? = some true) := by
  induction h with
  | nil => simp [hold]
  | @created l i v old h hi ih =>
    obtain ⟨hnobody, -⟩ := ih hold fun j hj => hkept j (List.mem_append_left _ hj)
    have hcreates : (callers i).turn? = some true := by rw [Caller.turn?, hi]
    refine ⟨nofun, fun _ => ⟨i, ⟨by simp, hcreates⟩, ?_⟩⟩
    rintro j ⟨hj, hturn⟩
    rcases List.mem_append.mp hj with hj | hj
    · exact absurd hturn (hnobody rfl j hj)
    · exact List.mem_singleton.mp hj
  | @deleted l i name old r h hi ih =>
    exact absurd (by rw [Caller.turn?, hi]) (hkept i (by simp))
  | @marked l i volume replica u old h hi now ih =>
    obtain ⟨-, hone⟩ := ih hold fun j hj => hkept j (List.mem_append_left _ hj)
    obtain ⟨j, ⟨hj, hturn⟩, hunique⟩ := hone rfl
    refine ⟨nofun, fun _ => ⟨j, ⟨List.mem_append_left _ hj, hturn⟩, ?_⟩⟩
    rintro k ⟨hk, hcreates⟩
    rcases List.mem_append.mp hk with hk | hk
    · exact hunique k ⟨hk, hcreates⟩
    · rw [List.mem_singleton.mp hk, Caller.turn?, hi] at hcreates
      cases hcreates

/-! ## Callers side by side -/

def begun (callers : ι → Caller) (m : Memory) : Situation Memory.shared own ι Report :=
  ⟨m, fun i => (callers i).task⟩

theorem begun_makes {d : Deed} (hi : (callers i).errand = .deed d) (m : Memory) :
    (begun callers m).tasks i = (d.call (callers i).agent).task.bind fun r =>
      .done ⟨d.operation, d.conclude (callers i).agent r⟩ :=
  Caller.task_deed hi

/-- In none of its calls a caller has changed the store. -/
def Idle (i : ι) (tr : List (Moment Memory.shared own ι)) : Prop :=
  ∀ mo ∈ tr, ∀ x, mo.act = .exchange i x → mo.after = mo.before

/-- A mark has changed nothing, or it has stamped the record that was there, and left all other
records alone. -/
def Stamps (key name : String) (mo : Moment Memory.shared own ι) : Prop :=
  mo.after = mo.before ∨ ∃ u now, Store.stored mo.before key = some (.ok u) ∧
    Store.stored mo.after key = some (.ok (u.struck name now)) ∧
    ∀ k, k ≠ key → Memory.get? mo.after k = Memory.get? mo.before k

section Runs

variable [DecidableEq ι] {m : Memory} {t u : Situation Memory.shared own ι Report}
variable {mo : Moment Memory.shared own ι} {tr : List (Moment Memory.shared own ι)}
variable {key name volume : String} {d : Deed} {v : Volume} {replica : Replica}

theorem unwritten_of_reading {o : Operation} {ho : o.isReading = true}
    (h : Run (begun callers m) tr t) (hi : (callers i).errand = .reading o ho) :
    Unwritten (exchanges i tr) :=
  Caller.neverWrites_task hi _ _ (h.path i)

theorem lives_of_run (hm : m.Reachable) (h : Run (begun callers m) tr t) (key : String) :
    Lives callers (writers key tr) (Store.stored m key) (Store.stored t.state key) := by
  induction h with
  | nil => exact .nil _
  | @concat tr mo t u h hs ih =>
    rw [writers_concat]
    cases hw : writer? key mo with
    | none =>
      rw [stored_of_writer?_eq_none hs hw]
      simpa using ih
    | some i =>
      -- A reading never writes, so that whoever did is at a deed, and its effect is known.
      rcases hi : (callers i).errand with d | ⟨o, ho⟩
      · have heffect := (effect_of_writer? (begun_makes hi m) hm.bounded h hs hw).2
        cases d with
        | create v =>
          obtain ⟨hold, hnew⟩ := heffect
          rw [hnew]
          rw [hold] at ih
          exact .created ih hi
        | delete name =>
          obtain ⟨-, hsome, hnew⟩ := erased_of_writer? (begun_makes hi m) h hs hw
          obtain ⟨r, hr⟩ := Option.isSome_iff_exists.mp hsome
          rw [hnew]
          rw [hr] at ih
          exact .deleted ih hi
        | mark volume replica =>
          obtain ⟨u, v, hold, hv, hnew⟩ := heffect
          obtain ⟨now, rfl⟩ := yields_markHere hv
          rw [hnew, Volume.markBad_eq_struck]
          rw [hold] at ih
          exact .marked ih hi now
      · obtain ⟨x, hact, hkey⟩ := writer?_eq_some_iff.mp hw
        have hnone := unwritten_of_reading (h.concat hs) hi x
          (mem_exchanges.mpr ⟨mo, by simp, hact⟩)
        rw [hkey] at hnone
        cases hnone

theorem nodup_writers (h : Run (begun callers m) tr t) (key : String) :
    (writers key tr).Nodup := by
  refine List.nodup_iff_count_le_one.mpr fun i => ?_
  rcases hi : (callers i).errand with d | ⟨o, ho⟩
  · exact count_le_one_of_makes (begun_makes hi m) h key
  · rw [count_writers, (unwritten_of_reading h hi).countP_eq_zero]
    exact Nat.zero_le 1

/-- Those who have written a key are those who were to, and are done with success. -/
theorem mem_writers_of_deed {s : Situation Memory.shared own ι Report} {a : Agent}
    (hi : s.tasks i = (d.call a).task.bind fun r => .done ⟨d.operation, d.conclude a r⟩)
    (h : Run s tr t) :
    i ∈ writers key tr ↔ (d.call a).key = key ∧ ∃ x, t.tasks i = .done ⟨d.operation, .ok x⟩ := by
  obtain ⟨w, hw, hpath, hsettled⟩ := settled_of_makes hi h
  rw [mem_writers_of_settled hsettled key, hw]
  refine and_congr_right fun _ => ?_
  constructor
  · rintro ⟨o, rfl, hwrote⟩
    obtain ⟨x, hx⟩ := (Deed.conclude_eq_ok_iff hpath).mpr ⟨o, rfl, hwrote⟩
    exact ⟨x, by rw [Task.done_bind, hx]⟩
  · rintro ⟨x, hx⟩
    obtain ⟨r, rfl, hr⟩ := Task.bind_done_eq_done hx
    obtain ⟨o, rfl, hwrote⟩ := (Deed.conclude_eq_ok_iff hpath).mp ⟨x, by simpa using hr⟩
    exact ⟨o, rfl, hwrote⟩

theorem mem_writers_iff (h : Run (begun callers m) tr t) (hi : (callers i).errand = .deed d) :
    i ∈ writers key tr ↔ (d.call (callers i).agent).key = key ∧
      ∃ x, t.tasks i = .done ⟨d.operation, .ok x⟩ :=
  mem_writers_of_deed (begun_makes hi m) h

/-- A caller who has failed has changed nothing. -/
theorem idle_of_error (h : Run (begun callers m) tr t) (hi : (callers i).errand = .deed d)
    {e : AgentError} (he : t.tasks i = .done ⟨d.operation, .error e⟩) : Idle i tr := by
  obtain ⟨w, hw, hpath, ⟨hl, -⟩ | ⟨p, x, o, -, -, -, rfl, hwrote⟩⟩ :=
    settled_of_makes (begun_makes hi m) h
  · exact fun mo hmo x hact => after_eq_of_unwritten h hl hmo hact
  · obtain ⟨x, hx⟩ := (Deed.conclude_eq_ok_iff hpath).mpr ⟨o, rfl, hwrote⟩
    rw [he, Task.done_bind, hx] at hw
    cases hw

/-- A creation succeeds in the moment in which it finds no record, and fails if it finds one. -/
theorem created_or_exists (h : Run (begun callers m) tr t)
    (hi : (callers i).errand = .deed (.create v))
    (hkey : (callers i).agent.space.volumeKey v.name = key) {r : Report}
    (hr : t.tasks i = .done r) :
    ∃ mo ∈ tr, (∃ x, mo.act = .exchange i x) ∧
      (Store.stored mo.before key = none ∧ Store.stored mo.after key = some (.ok v) ∧
          r = ⟨.createVolume v, .ok v⟩ ∨
        (Store.stored mo.before key).isSome = true ∧
          r = ⟨.createVolume v, .error (.alreadyExists "volume" v.name)⟩ ∧ Idle i tr) := by
  subst hkey
  have hmakes := begun_makes hi m
  rw [Deed.call, ClientCall.task_create] at hmakes
  obtain ⟨mo, hmo, a, hact, hstep, rfl⟩ := exists_answer_of_one hmakes h hr
  refine ⟨mo, hmo, ⟨_, hact⟩, ?_⟩
  cases hget : Memory.get? mo.before ((callers i).agent.space.volumeKey v.name) with
  | none =>
    rw [Memory.step_create_of_none hget] at hstep
    obtain ⟨rfl, hafter⟩ := Prod.mk.inj hstep
    rw [← hafter]
    exact .inl ⟨stored_of_get?_eq_none hget, stored_write _ _ v, rfl⟩
  | some e =>
    rw [Memory.step_create_of_some hget] at hstep
    obtain ⟨rfl, -⟩ := Prod.mk.inj hstep
    rw [stored_of_get?_eq_some hget rfl]
    exact .inr ⟨rfl, rfl, idle_of_error h hi hr⟩

/-- A deletion succeeds in the moment in which it finds a record, and fails if it finds none. -/
theorem deleted_or_missing (h : Run (begun callers m) tr t)
    (hi : (callers i).errand = .deed (.delete name))
    (hkey : (callers i).agent.space.volumeKey name = key) {r : Report}
    (hr : t.tasks i = .done r) :
    ∃ mo ∈ tr, (∃ x, mo.act = .exchange i x) ∧
      ((Store.stored mo.before key).isSome = true ∧ Store.stored mo.after key = none ∧
          r = ⟨.deleteVolume name, .ok ()⟩ ∨
        Store.stored mo.before key = none ∧
          r = ⟨.deleteVolume name, .error (.notFound "volume" name)⟩ ∧ Idle i tr) := by
  subst hkey
  have hmakes := begun_makes hi m
  rw [Deed.call, ClientCall.task_delete] at hmakes
  obtain ⟨mo, hmo, a, hact, hstep, rfl⟩ := exists_answer_of_one hmakes h hr
  refine ⟨mo, hmo, ⟨_, hact⟩, ?_⟩
  obtain ⟨rfl, hafter⟩ := Prod.mk.inj ((Memory.step_delete mo.before _).symm.trans hstep)
  cases hget : Memory.get? mo.before ((callers i).agent.space.volumeKey name) with
  | none =>
    rw [hget] at hr
    exact .inr ⟨stored_of_get?_eq_none hget, rfl, idle_of_error h hi hr⟩
  | some e =>
    rw [stored_of_get?_eq_some hget rfl, ← hafter]
    exact .inl ⟨rfl, stored_erase _ _, rfl⟩

/-- Those who have created a record are those who were to create it, and are done with success. -/
theorem creates_iff (h : Run (begun callers m) tr t) :
    i ∈ writers key tr ∧ (callers i).turn? = some true ↔
      ∃ v, (callers i).errand = .deed (.create v) ∧
        (callers i).agent.space.volumeKey v.name = key ∧
        t.tasks i = .done ⟨.createVolume v, .ok v⟩ := by
  rw [Caller.turn?_eq_true_iff]
  constructor
  · rintro ⟨hmem, v, hi⟩
    obtain ⟨hkey, x, hx⟩ := (mem_writers_iff h hi).mp hmem
    obtain ⟨-, -, -, ⟨-, -, hr⟩ | ⟨-, hr, -⟩⟩ := created_or_exists h hi hkey hx
    · exact ⟨v, hi, hkey, hx.trans (congrArg Task.done hr)⟩
    · cases hr
  · rintro ⟨v, hi, hkey, hdone⟩
    exact ⟨(mem_writers_iff h hi).mpr ⟨hkey, v, hdone⟩, v, hi⟩

/-- Where there was no volume at first, nobody deletes it and one who was to create it is done,
exactly one has created it. -/
theorem one_creation_wins (hm : m.Reachable) (h : Run (begun callers m) tr t)
    (hnone : Store.stored m key = none)
    (hkept : ∀ i name, (callers i).errand = .deed (.delete name) →
      (callers i).agent.space.volumeKey name ≠ key)
    (hi : (callers i).errand = .deed (.create v))
    (hkey : (callers i).agent.space.volumeKey v.name = key) {r : Report}
    (hr : t.tasks i = .done r) :
    ∃! j, ∃ w, (callers j).errand = .deed (.create w) ∧
      (callers j).agent.space.volumeKey w.name = key ∧
      t.tasks j = .done ⟨.createVolume w, .ok w⟩ := by
  have hundeleted : ∀ {tr : List (Moment Memory.shared own ι)} {t : Situation _ _ ι Report},
      Run (begun callers m) tr t → ∀ j ∈ writers key tr, (callers j).turn? ≠ some false := by
    intro tr t h j hj hturn
    obtain ⟨name, hj'⟩ := Caller.turn?_eq_false_iff.mp hturn
    exact hkept j name hj' ((mem_writers_iff h hj').mp hj).1
  have hsome : ∃ j ∈ writers key tr, (callers j).turn? = some true := by
    obtain ⟨mo, hmo, -, ⟨-, -, rfl⟩ | ⟨hthere, -, -⟩⟩ := created_or_exists h hi hkey hr
    · exact ⟨i, creates_iff h |>.mpr ⟨v, hi, hkey, hr⟩⟩
    · -- Who comes too late has found a record, and someone has created it before.
      obtain ⟨a, b, t₁, t₂, rfl, ha, hs, -⟩ := h.exists_step hmo
      rw [hs.before_eq] at hthere
      obtain ⟨j, ⟨hj, hturn⟩, -⟩ :=
        ((lives_of_run hm ha key).one_creation hnone (hundeleted ha)).2 hthere
      refine ⟨j, ?_, hturn⟩
      rw [writers, List.filterMap_append]
      exact List.mem_append_left _ hj
  obtain ⟨hnobody, hone⟩ := (lives_of_run hm h key).one_creation hnone (hundeleted h)
  have hthere : (Store.stored t.state key).isSome = true := by
    refine Option.isSome_iff_ne_none.mpr fun hgone => ?_
    obtain ⟨j, hj, hturn⟩ := hsome
    exact hnobody hgone j hj hturn
  exact (existsUnique_congr fun j => creates_iff h).mp (hone hthere)

theorem stamps_of_mark (hm : m.Reachable) (h : Run (begun callers m) tr t)
    (hi : (callers i).errand = .deed (.mark volume replica)) (hmo : mo ∈ tr)
    {x : Exchange (Store.interface.sum own)} (hact : mo.act = .exchange i x) :
    Stamps ((callers i).agent.space.volumeKey volume) replica.inst.name mo := by
  obtain ⟨a, b, t₁, t₂, -, ha, hs, -⟩ := h.exists_step hmo
  rw [Stamps, hs.before_eq, hs.after_eq]
  cases hx : written? x with
  | none =>
    refine .inl (state_of_unwritten hs fun j y hy => ?_)
    rw [hact] at hy
    cases hy
    exact hx
  | some k =>
    have hw : writer? k mo = some i := writer?_eq_some_iff.mpr ⟨x, hact, hx⟩
    obtain ⟨rfl, u, v, hold, hv, hnew⟩ := effect_of_writer? (begun_makes hi m) hm.bounded ha hs hw
    obtain ⟨now, rfl⟩ := yields_markHere hv
    rw [Volume.markBad_eq_struck] at hnew
    refine .inr ⟨u, now, hold, hnew, fun j hj => get?_of_writer?_eq_none hs ?_⟩
    refine Option.eq_none_iff_forall_ne_some.mpr fun i' hi' => ?_
    obtain ⟨y, hact', hy⟩ := writer?_eq_some_iff.mp hi'
    rw [hact] at hact'
    cases hact'
    rw [hx] at hy
    exact hj (Option.some.inj hy).symm

/-- In every interleaving, the callers who have created and deleted the volume under a key took
turns, beginning with a creation if and only if there was none at first. A creation succeeds if
there is no record at the moment of its call, and a deletion if there is one; otherwise they say so
and have changed nothing. So of those who create a volume that nobody deletes exactly one succeeds.
A mark has stamped nothing but the very record that was there when it wrote, so that what is stored
is the record that was created last, with other stamps at most. -/
theorem creations_and_deletions_take_turns (hm : m.Reachable) (h : Run (begun callers m) tr t) :
    (∀ key, Lives callers (writers key tr) (Store.stored m key) (Store.stored t.state key) ∧
      (turns callers (Store.stored m key) (writers key tr)).IsChain (· ≠ ·) ∧
      Descends (origin callers (Store.stored m key) (writers key tr)) (Store.stored t.state key) ∧
      (writers key tr).Nodup ∧
      ∀ i d, (callers i).errand = .deed d → (i ∈ writers key tr ↔
        (d.call (callers i).agent).key = key ∧
          ∃ x, t.tasks i = .done ⟨d.operation, .ok x⟩)) ∧
    (∀ i v, (callers i).errand = .deed (.create v) → ∀ r, t.tasks i = .done r →
      ∃ mo ∈ tr, (∃ x, mo.act = .exchange i x) ∧
        (Store.stored mo.before ((callers i).agent.space.volumeKey v.name) = none ∧
            Store.stored mo.after ((callers i).agent.space.volumeKey v.name) = some (.ok v) ∧
            r = ⟨.createVolume v, .ok v⟩ ∨
          (Store.stored mo.before ((callers i).agent.space.volumeKey v.name)).isSome = true ∧
            r = ⟨.createVolume v, .error (.alreadyExists "volume" v.name)⟩ ∧ Idle i tr)) ∧
    (∀ i name, (callers i).errand = .deed (.delete name) → ∀ r, t.tasks i = .done r →
      ∃ mo ∈ tr, (∃ x, mo.act = .exchange i x) ∧
        ((Store.stored mo.before ((callers i).agent.space.volumeKey name)).isSome = true ∧
            Store.stored mo.after ((callers i).agent.space.volumeKey name) = none ∧
            r = ⟨.deleteVolume name, .ok ()⟩ ∨
          Store.stored mo.before ((callers i).agent.space.volumeKey name) = none ∧
            r = ⟨.deleteVolume name, .error (.notFound "volume" name)⟩ ∧ Idle i tr)) ∧
    (∀ key, Store.stored m key = none →
      (∀ i name, (callers i).errand = .deed (.delete name) →
        (callers i).agent.space.volumeKey name ≠ key) →
      ∀ i v r, (callers i).errand = .deed (.create v) →
        (callers i).agent.space.volumeKey v.name = key → t.tasks i = .done r →
          ∃! j, ∃ w, (callers j).errand = .deed (.create w) ∧
            (callers j).agent.space.volumeKey w.name = key ∧
            t.tasks j = .done ⟨.createVolume w, .ok w⟩) ∧
    (∀ i volume replica, (callers i).errand = .deed (.mark volume replica) →
      ∀ mo ∈ tr, ∀ x, mo.act = .exchange i x →
        Stamps ((callers i).agent.space.volumeKey volume) replica.inst.name mo) ∧
    ∀ i o ho, (callers i).errand = .reading o ho → Idle i tr := by
  refine ⟨?_, ?_, ?_, ?_, ?_, ?_⟩
  · intro key
    have hlives := lives_of_run hm h key
    exact ⟨hlives, hlives.alternate.1, hlives.descends, nodup_writers h key,
      fun i d hi => mem_writers_iff h hi⟩
  · exact fun i v hi r hr => created_or_exists h hi rfl hr
  · exact fun i name hi r hr => deleted_or_missing h hi rfl hr
  · exact fun key hnone hkept i v r hi hkey hr => one_creation_wins hm h hnone hkept hi hkey hr
  · intro i volume replica hi mo hmo x hact
    exact stamps_of_mark hm h hi hmo hact
  · intro i o ho hi mo hmo x hact
    exact after_eq_of_unwritten h (unwritten_of_reading h hi) hmo hact

end Runs

def lone : Volume := { twoReplicas with replicas := .ofList [("r1", replicaNamed "vol-r-1")] }

/-- One is to mark a replica of a volume that the second one deletes, and that the third one creates
again without this replica. -/
def racers (i : Fin 3) : Caller where
  agent := ⟨default, ⟨""⟩, default, "engine"⟩
  errand := .deed (match i with
    | 0 => .mark "vol" (replicaNamed "vol-r-2")
    | 1 => .delete "vol"
    | 2 => .create lone)

/-- What is stored once the volume was deleted and created again. -/
def recreated : Memory :=
  (oneVolume.erase "/volumes/vol").write "/volumes/vol" (Record.text lone)

theorem get?_recreated : recreated.get? "/volumes/vol" = some ⟨Record.text lone, 2⟩ := by
  rw [recreated, Memory.get?_write, if_pos rfl]
  rfl

/-- The mark reads, stamps what it has read, finds it gone when it writes, and then writes the
volume that was created meanwhile, as it is. -/
theorem run_racers :
    ∃ tr t, Run (begun racers oneVolume) tr t ∧ writers "/volumes/vol" tr = [1, 2, 0] ∧
      t.tasks 0 = .done ⟨.markBadReplica "vol" (replicaNamed "vol-r-2"), .ok ()⟩ ∧
      Store.stored t.state "/volumes/vol" = some (.ok lone) := by
  have hmark : (racers 0).errand = .deed (.mark "vol" (replicaNamed "vol-r-2")) := rfl
  have hread := (begun_makes hmark oneVolume).trans
    (congrArg (Task.bind · _) (ClientCall.task_update ⟨""⟩ "vol" (markHere "vol-r-2")))
  have hdelete := (begun_makes (show (racers 1).errand = .deed (.delete "vol") from rfl)
    oneVolume).trans (congrArg (Task.bind · _) (ClientCall.task_delete ⟨""⟩ "vol"))
  have hcreate := (begun_makes (show (racers 2).errand = .deed (.create lone) from rfl)
    oneVolume).trans (congrArg (Task.bind · _) (ClientCall.task_create ⟨""⟩ lone))
  have hstamp : Space.afterRead "/volumes/vol" (markHere "vol-r-2") 4
      (.ok (some ⟨Record.text twoReplicas, 1⟩)) = _ := (Space.afterRead_text _ _ _ _ _).trans
    (congrArg (fun w => (Task.inr w).bind _) (markHere_of_some (k := "r2") (by decide)))
  have hretry : Space.afterWrite "/volumes/vol" (markHere "vol-r-2") 4
      (twoReplicas.markBad "vol-r-2" .epoch) (.error (.conflict "/volumes/vol")) = _ :=
    Space.changeRounds_succ "/volumes/vol" _ 3
  have hpass : Space.afterRead "/volumes/vol" (markHere "vol-r-2") 3
      (.ok (some ⟨Record.text lone, 2⟩)) = _ := (Space.afterRead_text _ _ _ _ _).trans
    (congrArg (fun w => (Task.inr w).bind _) (markHere_of_none (by decide)))
  have ha₁ : Memory.step (.get "/volumes/vol") oneVolume =
      (.ok (some ⟨Record.text twoReplicas, 1⟩), oneVolume) := by rw [Memory.step, get?_oneVolume]
  have ha₃ : Memory.step (.delete "/volumes/vol") oneVolume =
      (.ok true, oneVolume.erase "/volumes/vol") := by
    rw [Memory.step_delete, get?_oneVolume, Option.isSome_some]
  have ha₄ : Memory.step (.create "/volumes/vol" (Record.text lone))
      (oneVolume.erase "/volumes/vol") = (.ok 2, recreated) := Memory.step_create_of_none (by simp)
  have ha₅ : Memory.step (.compareAndSet "/volumes/vol"
        (Record.text (twoReplicas.markBad "vol-r-2" .epoch)) 1) recreated =
      (.error (.conflict "/volumes/vol"), recreated) := by
    rw [Memory.step, get?_recreated, Option.map_some, if_neg (by decide)]
  have ha₆ : Memory.step (.get "/volumes/vol") recreated =
      (.ok (some ⟨Record.text lone, 2⟩), recreated) := by rw [Memory.step, get?_recreated]
  have ha₇ : Memory.step (.compareAndSet "/volumes/vol" (Record.text lone) 2) recreated =
      (.ok 3, recreated.write "/volumes/vol" (Record.text lone)) := by
    rw [Memory.step, get?_recreated, Option.map_some, if_pos rfl]
    rfl
  obtain ⟨t₁, h₁, hs₁, hf₁, ho₁⟩ :=
    Run.exists_shared (.nil (s := begun racers oneVolume)) (i := 0) hread ha₁
  obtain ⟨t₂, h₂, hs₂, hf₂, ho₂⟩ := h₁.exists_own
    (hf₁.trans (congrArg (fun w => (Task.bind w _).bind _) hstamp)) .epoch
  have hothers : ∀ i, i ≠ 0 → t₂.tasks i = (begun racers oneVolume).tasks i :=
    fun i hi => (ho₂ i hi).trans (ho₁ i hi)
  obtain ⟨t₃, h₃, hs₃, -, ho₃⟩ := h₂.exists_shared ((hothers 1 (by decide)).trans hdelete)
    ((congrArg (Memory.step _) (hs₂.trans hs₁)).trans ha₃)
  obtain ⟨t₄, h₄, hs₄, -, ho₄⟩ := h₃.exists_shared
    (((ho₃ 2 (by decide)).trans (hothers 2 (by decide))).trans hcreate)
    ((congrArg (Memory.step _) hs₃).trans ha₄)
  obtain ⟨t₅, h₅, hs₅, hf₅, -⟩ := h₄.exists_shared
    (((ho₄ 0 (by decide)).trans (ho₃ 0 (by decide))).trans hf₂)
    ((congrArg (Memory.step _) hs₄).trans ha₅)
  obtain ⟨t₆, h₆, hs₆, hf₆, -⟩ := h₅.exists_shared
    (hf₅.trans (congrArg (fun w => (Task.bind w _).bind _) hretry))
    ((congrArg (Memory.step _) hs₅).trans ha₆)
  obtain ⟨t₇, h₇, hs₇, hf₇, -⟩ := h₆.exists_shared
    (hf₆.trans (congrArg (fun w => (Task.bind w _).bind _) hpass))
    ((congrArg (Memory.step _) hs₆).trans ha₇)
  refine ⟨_, t₇, h₇, rfl, hf₇, ?_⟩
  rw [hs₇]
  exact stored_write _ _ _

theorem creations_and_deletions_take_turns_racers :
    ∃ tr t, oneVolume.Reachable ∧ Run (begun racers oneVolume) tr t ∧
      writers "/volumes/vol" tr = [1, 2, 0] ∧
      t.tasks 0 = .done ⟨.markBadReplica "vol" (replicaNamed "vol-r-2"), .ok ()⟩ ∧
      Store.stored t.state "/volumes/vol" = some (.ok lone) ∧
      (turns racers (Store.stored oneVolume "/volumes/vol")
        (writers "/volumes/vol" tr)).IsChain (· ≠ ·) := by
  obtain ⟨tr, t, h, hwriters, hmarked, hstored⟩ := run_racers
  obtain ⟨hturns, -⟩ := creations_and_deletions_take_turns reachable_oneVolume h
  obtain ⟨-, hchain, -⟩ := hturns "/volumes/vol"
  exact ⟨tr, t, reachable_oneVolume, h, hwriters, hmarked, hstored, hchain⟩

end HostAgent.Agent
