import HostAgent.Proofs.Store.Clients
import HostAgent.Proofs.Task.Interleaving
import Mathlib.Data.List.Nodup

namespace HostAgent.Store

/-!
# Who has written a key

Tasks of any kind share a store in memory. An entry that one of them has read either is still there,
and then nobody has written its key since, or was overtaken, and then no conditional write under its
index is carried out any more. A task that makes a call on a volume writes the key of the volume
once at most, and only with the effect that the call has on the record which is there at that
moment.
-/

open Interleaving

variable {M : Interface} {ι : Type}

/-- The store in memory as a shared part that changes by calls only. -/
def Memory.shared : Shared interface := ⟨Memory, Memory.step, fun _ _ => False⟩

def stored (m : Memory) (key : String) : Option (Except Error Volume) :=
  (m.get? key).map fun e => Space.decode e.value

theorem stored_of_get?_eq_some {m : Memory} {key : String} {e : Entry} {r : Except Error Volume}
    (h : m.get? key = some e) (hr : Space.decode e.value = r) : stored m key = some r := by
  rw [stored, h, Option.map_some, hr]

theorem stored_of_get?_eq_none {m : Memory} {key : String} (h : m.get? key = none) :
    stored m key = none := by
  rw [stored, h, Option.map_none]

@[simp] theorem stored_write (m : Memory) (key : String) (v : Volume) :
    stored (m.write key (Record.text v)) key = some (.ok v) := by
  apply stored_of_get?_eq_some
  · rw [Memory.get?_write, if_pos rfl]
  · exact Space.decode_text v

@[simp] theorem stored_erase (m : Memory) (key : String) : stored (m.erase key) key = none :=
  stored_of_get?_eq_none (by rw [Memory.get?_erase, if_pos rfl])

/-- The call that has written or deleted a key in a step. -/
def writer? (key : String) (mo : Moment Memory.shared M ι) : Option ι :=
  match mo.act with
  | .exchange i x => if written? x = some key then some i else none
  | .change => none

def writers (key : String) (tr : List (Moment Memory.shared M ι)) : List ι :=
  tr.filterMap (writer? key)

theorem writers_concat (key : String) (tr : List (Moment Memory.shared M ι))
    (mo : Moment Memory.shared M ι) :
    writers key (tr ++ [mo]) = writers key tr ++ (writer? key mo).toList := by
  rw [writers, List.filterMap_append]
  congr 1

section Steps

variable {α : Type} {t u : Situation Memory.shared M ι α} {mo : Moment Memory.shared M ι}
variable {tr : List (Moment Memory.shared M ι)} {key : String} {e : Entry} {i : ι}

theorem writer?_eq_some_iff :
    writer? key mo = some i ↔ ∃ x, mo.act = .exchange i x ∧ written? x = some key := by
  unfold writer?
  cases mo.act with
  | exchange j x =>
    simp only [Act.exchange.injEq]
    constructor
    · intro h
      split at h
      next hx =>
        cases h
        exact ⟨x, ⟨rfl, rfl⟩, hx⟩
      next => cases h
    · rintro ⟨y, ⟨rfl, rfl⟩, hkey⟩
      rw [if_pos hkey]
  | change => simp

variable [DecidableEq ι]

theorem step_state (h : Step t mo u) :
    (u.state = t.state ∧ ∀ i x, mo.act = .exchange i x → written? x = none) ∨
      ∃ i c, mo.act = .exchange i ⟨.inl c, (Memory.step c t.state).1⟩ ∧
        u.state = (Memory.step c t.state).2 := by
  cases h with
  | shared h => exact .inr ⟨_, _, rfl, rfl⟩
  | own h a =>
    refine .inl ⟨rfl, ?_⟩
    intro i x hx
    cases hx
    rfl
  | change h => exact h.elim

theorem state_of_unwritten (h : Step t mo u)
    (hnone : ∀ i x, mo.act = .exchange i x → written? x = none) : u.state = t.state := by
  rcases step_state h with ⟨hu, -⟩ | ⟨i, c, hact, hu⟩
  · exact hu
  · rw [hu]
    exact Memory.step_of_written?_eq_none (hnone i _ hact)

theorem get?_of_writer?_eq_none (h : Step t mo u) (hnone : writer? key mo = none) :
    u.state.get? key = t.state.get? key := by
  rcases step_state h with ⟨hu, -⟩ | ⟨i, c, hact, hu⟩
  · rw [hu]
  · rw [hu]
    refine Memory.get?_step_of_ne ?_
    intro hkey
    rw [writer?_eq_some_iff.mpr ⟨_, hact, hkey⟩] at hnone
    cases hnone

theorem stored_of_writer?_eq_none (h : Step t mo u) (hnone : writer? key mo = none) :
    stored u.state key = stored t.state key :=
  congrArg (Option.map _) (get?_of_writer?_eq_none h hnone)

theorem bounded_of_step (h : Step t mo u) (ht : Memory.Bounded t.state) :
    Memory.Bounded u.state := by
  rcases step_state h with ⟨hu, -⟩ | ⟨i, c, -, hu⟩
  · rwa [hu]
  · rw [hu]
    exact ht.step c

theorem index_le_of_step (h : Step t mo u) : t.state.index ≤ u.state.index := by
  rcases step_state h with ⟨hu, -⟩ | ⟨i, c, -, hu⟩
  · exact Nat.le_of_eq (congrArg Memory.index hu.symm)
  · rw [hu]
    exact Memory.index_le_index_step c _

theorem overtaken_of_step (h : Step t mo u) (ht : Memory.Overtaken t.state key e) :
    Memory.Overtaken u.state key e := by
  rcases step_state h with ⟨hu, -⟩ | ⟨i, c, -, hu⟩
  · rwa [hu]
  · rw [hu]
    exact ht.step c

theorem overtaken_of_writer? (h : Step t mo u) (hle : e.index ≤ t.state.index)
    (hw : writer? key mo = some i) : Memory.Overtaken u.state key e := by
  obtain ⟨x, hact, hkey⟩ := writer?_eq_some_iff.mp hw
  rcases step_state h with ⟨-, hnone⟩ | ⟨j, c, hact', hu⟩
  · rw [hnone i x hact] at hkey
    cases hkey
  · rw [hact'] at hact
    cases hact
    rw [hu]
    exact Memory.overtaken_of_written? hle hkey

/-- An entry that was there at some point is still there, and its key was not written in between,
or it was overtaken. -/
theorem untouched_or_overtaken (h : Run t tr u) (hget : t.state.get? key = some e)
    (hle : e.index ≤ t.state.index) :
    ((∀ mo ∈ tr, writer? key mo = none) ∧ u.state.get? key = some e ∧
      e.index ≤ u.state.index) ∨ Memory.Overtaken u.state key e := by
  induction h with
  | nil => exact .inl ⟨by simp, hget, hle⟩
  | @concat tr mo u v _ hm ih =>
    rcases ih with ⟨hnone, hu, hindex⟩ | hover
    · cases hw : writer? key mo with
      | none =>
        refine .inl ⟨?_, ?_, Nat.le_trans hindex (index_le_of_step hm)⟩
        · intro mo' hmem
          rcases List.mem_append.mp hmem with hmem | hmem
          · exact hnone mo' hmem
          · rwa [List.mem_singleton.mp hmem]
        · rw [get?_of_writer?_eq_none hm hw, hu]
      | some i => exact .inr (overtaken_of_writer? hm hindex hw)
    · exact .inr (overtaken_of_step hm hover)

theorem bounded_of_run (ht : Memory.Bounded t.state) (h : Run t tr u) : Memory.Bounded u.state :=
  h.invariant (P := Memory.Bounded) (fun hs hb => bounded_of_step hs hb) ht

/-- How a change has replaced a volume: it read the volume, nobody wrote or deleted it from then on,
and in a later step of the change what was made of it took its place. -/
def Replaced (i : ι) (key : String) (mutate : Volume → Task M Volume) (v : Volume)
    (past : List (Moment Memory.shared M ι)) (write : Moment Memory.shared M ι) : Prop :=
  ∃ a read b e u k, past = a ++ read :: b ∧
    read.act = .exchange i ⟨.inl (.get key), (.ok (some e) : Except Error (Option Entry))⟩ ∧
    write.act = .exchange i
      ⟨.inl (.compareAndSet key (Record.text v) e.index), (.ok k : Except Error Nat)⟩ ∧
    (∀ mo ∈ b, writer? key mo = none ∧ ∀ c x, mo.act ≠ .exchange i ⟨.inl c, x⟩) ∧
    Memory.get? write.before key = Memory.get? read.before key ∧
    stored write.before key = some (.ok u) ∧ (mutate u).Yields v ∧
    stored write.after key = some (.ok v)

/-! ## What a task has written -/

variable {s : Situation Memory.shared M ι α}

/-- A change that wrote has replaced a volume. -/
theorem replaced_of_replacement {mutate : Volume → Task M Volume} {v : Volume}
    (hbounded : Memory.Bounded s.state) (h : Run s tr t) (hs : Step t mo u)
    {x : Exchange (interface.sum M)} (hact : mo.act = .exchange i x)
    (hl : Space.Replacement key mutate v (exchanges i tr ++ [x])) :
    Replaced i key mutate v tr mo := by
  obtain ⟨p, q, e, w, k, hl, -, hq, hw, hv⟩ := hl
  have hl' : exchanges i tr ++ [x] = (p ++ ⟨.inl (.get key), .ok (some e)⟩ :: q)
      ++ [⟨.inl (.compareAndSet key (Record.text v) e.index), .ok k⟩] := by
    rw [hl]
    simp
  obtain ⟨htr, hx⟩ := List.append_inj' hl' rfl
  obtain rfl := List.singleton_inj.mp hx
  obtain ⟨a, read, b, rfl, hread, -, hb⟩ := exists_split htr
  obtain ⟨t₁, t₂, ha, hrs, hrun⟩ := h.of_append_cons
  obtain ⟨hgot, hsame⟩ := Prod.mk.inj (hrs.answer_eq hread)
  have hget : Memory.get? read.before key = some e := Except.ok.inj hgot
  have hstate : t₂.state = read.before := hrs.after_eq.symm.trans hsame.symm
  have hget₂ : Memory.get? t₂.state key = some e := by rw [hstate, hget]
  have hle := bounded_of_step hrs (bounded_of_run hbounded ha) _ _ hget₂
  obtain ⟨hindex, hafter⟩ := Memory.step_compareAndSet_ok (hs.answer_eq hact)
  rw [hs.before_eq] at hindex
  rcases untouched_or_overtaken hrun hget₂ hle with ⟨hnone, ht, -⟩ | hover
  · refine ⟨a, read, b, e, w, k, rfl, hread, hact, ?_, ?_, ?_, hv, ?_⟩
    · intro mo' hmo'
      refine ⟨hnone mo' hmo', ?_⟩
      intro c y hy
      have hmem : ⟨.inl c, y⟩ ∈ exchanges i b := mem_exchanges.mpr ⟨mo', hmo', hy⟩
      rw [hb] at hmem
      obtain ⟨z, hz⟩ := hq _ hmem
      cases hz
    · rw [hs.before_eq, ht, hget]
    · rw [hs.before_eq]
      exact stored_of_get?_eq_some ht hw
    · rw [hafter]
      exact stored_write _ _ v
  · exact absurd hindex hover.index_ne

theorem path_concat (h : Run s tr t) (hs : Step t mo u) {x : Exchange (interface.sum M)}
    (hact : mo.act = .exchange i x) :
    Task.Path (s.tasks i) (exchanges i tr ++ [x]) (u.tasks i) := by
  have hpath := (h.concat hs).path i
  rwa [exchanges_concat, Act.of?_eq_some_iff.mpr hact, Option.toList_some] at hpath

/-- A task that makes one call on the store makes it in the situation in which it is. -/
theorem exchange_of_one {c : Call} {g : c.Answer → α}
    (htask : s.tasks i = .ask (.inl c) fun a => .done (g a)) (h : Run s tr t) (hs : Step t mo u)
    {x : Exchange (interface.sum M)} (hact : mo.act = .exchange i x) :
    x = ⟨.inl c, (Memory.step c t.state).1⟩ ∧ u.state = (Memory.step c t.state).2 := by
  have hpath := path_concat h hs hact
  rw [htask] at hpath
  rcases Task.path_one_iff.mp hpath with ⟨hnil, -⟩ | ⟨a, hl, -⟩
  · simp at hnil
  · obtain rfl : x = ⟨.inl c, a⟩ := by
      cases hl' : exchanges i tr with
      | nil =>
        rw [hl'] at hl
        simpa using hl
      | cons y l =>
        rw [hl'] at hl
        simp at hl
    have hanswer := hs.answer_eq hact
    rw [hs.before_eq, hs.after_eq] at hanswer
    have hstep : Memory.step c t.state = (a, u.state) := hanswer
    rw [hstep]
    exact ⟨rfl, rfl⟩

/-- Such a task is done when its call has been answered, by the store as it was at that moment. -/
theorem exists_answer_of_one {c : Call} {g : c.Answer → α} {r : α}
    (htask : s.tasks i = .ask (.inl c) fun a => .done (g a)) (h : Run s tr t)
    (hdone : t.tasks i = .done r) :
    ∃ mo ∈ tr, ∃ a, mo.act = .exchange i ⟨.inl c, a⟩ ∧
      Memory.step c mo.before = (a, mo.after) ∧ r = g a := by
  have hpath := h.path i
  rw [htask, hdone] at hpath
  rcases Task.path_one_iff.mp hpath with ⟨-, hask⟩ | ⟨a, hl, hr⟩
  · cases hask
  · obtain ⟨mo, hmo, hact⟩ := mem_exchanges.mp (hl ▸ List.mem_singleton.mpr rfl)
    obtain ⟨p, q, t₁, t₂, -, -, hs, -⟩ := h.exists_step hmo
    exact ⟨mo, hmo, a, hact, hs.answer_eq hact, Task.done.inj hr⟩

theorem after_eq_of_unwritten (h : Run s tr t) (hl : Unwritten (exchanges i tr)) (hmem : mo ∈ tr)
    {x : Exchange (interface.sum M)} (hact : mo.act = .exchange i x) : mo.after = mo.before := by
  obtain ⟨a, b, t₁, t₂, -, -, hs, -⟩ := h.exists_step hmem
  rw [hs.before_eq, hs.after_eq]
  refine state_of_unwritten hs ?_
  intro j y hy
  rw [hact] at hy
  cases hy
  exact hl x (mem_exchanges.mpr ⟨mo, hmem, hact⟩)

theorem count_writers (key : String) (tr : List (Moment Memory.shared M ι)) (i : ι) :
    (writers key tr).count i = (exchanges i tr).countP fun x => written? x == some key := by
  induction tr with
  | nil => rfl
  | cons mo tr ih =>
    unfold writers exchanges at ih ⊢
    rw [List.filterMap_cons, List.filterMap_cons]
    unfold writer? Act.of? at ih ⊢
    cases mo.act with
    | exchange j x =>
      by_cases hj : j = i
      · subst hj
        by_cases hx : written? x = some key
        · simp [hx, ih]
        · simp [hx, ih]
      · by_cases hx : written? x = some key
        · simp [hx, hj, ih]
        · simp [hx, hj, ih]
    | change => exact ih

theorem Unwritten.countP_eq_zero {l : List (Exchange (interface.sum M))} (h : Unwritten l)
    (key : String) : (l.countP fun x => written? x == some key) = 0 := by
  rw [List.countP_eq_zero]
  intro x hx
  simp [h x hx]

/-! ## Tasks that make a call on a volume -/

variable {c : ClientCall M} {f : Except Error Outcome → α}

/-- However far it came, such a task has written nothing, or the key of the volume once and last. -/
theorem settled_of_makes (hi : s.tasks i = c.task.bind fun r => .done (f r)) (h : Run s tr t) :
    ∃ w, t.tasks i = w.bind (fun r => .done (f r)) ∧ Task.Path c.task (exchanges i tr) w ∧
      c.Settled (exchanges i tr) w := by
  have hpath := h.path i
  rw [hi] at hpath
  obtain ⟨w, hw, hpath⟩ := hpath.of_map
  exact ⟨w, hw, hpath, ClientCall.path_task hpath⟩

theorem replaced_of_written {space : Space} {name : String} {mutate : Volume → Task M Volume}
    (hi : s.tasks i = (ClientCall.update space name mutate).task.bind fun r => .done (f r))
    (hbounded : Memory.Bounded s.state) (h : Run s tr t) (hs : Step t mo u)
    {x : Exchange (interface.sum M)} (hact : mo.act = .exchange i x)
    (hwritten : written? x ≠ none) :
    ∃ v, u.tasks i = .done (f (.ok (.updated (some v)))) ∧
      Replaced i (space.volumeKey name) mutate v tr mo := by
  have hpath := path_concat h hs hact
  rw [hi] at hpath
  obtain ⟨w, hw, hpath⟩ := hpath.of_map
  rcases ClientCall.path_update hpath with ⟨hnone, -⟩ | ⟨v, hl, rfl⟩
  · exact absurd (hnone x (by simp)) hwritten
  · exact ⟨v, hw, replaced_of_replacement hbounded h hs hact hl⟩

/-- Only a volume that is stored is deleted. -/
theorem erased_of_writer? {space : Space} {name : String}
    (hi : s.tasks i = (ClientCall.delete space name).task.bind fun r => .done (f r))
    (h : Run s tr t) (hs : Step t mo u) (hw : writer? key mo = some i) :
    space.volumeKey name = key ∧ (stored t.state key).isSome = true ∧
      stored u.state key = none := by
  obtain ⟨x, hact, hkey⟩ := writer?_eq_some_iff.mp hw
  rw [ClientCall.task_delete] at hi
  obtain ⟨rfl, hu⟩ := exchange_of_one hi h hs hact
  have hwritten : Call.written? (.delete (space.volumeKey name))
      (.ok (Memory.get? t.state (space.volumeKey name)).isSome) = some key := hkey
  cases hget : Memory.get? t.state (space.volumeKey name) with
  | none =>
    rw [hget] at hwritten
    cases hwritten
  | some e =>
    rw [hget] at hwritten
    obtain rfl : space.volumeKey name = key := Option.some.inj hwritten
    rw [stored_of_get?_eq_some hget rfl, hu]
    exact ⟨rfl, rfl, stored_erase _ _⟩

/-- A call that writes or deletes a key has its effect on the record that is stored there. -/
theorem effect_of_writer? (hi : s.tasks i = c.task.bind fun r => .done (f r))
    (hbounded : Memory.Bounded s.state) (h : Run s tr t) (hs : Step t mo u)
    (hw : writer? key mo = some i) :
    c.key = key ∧ c.Effect (stored t.state key) (stored u.state key) := by
  obtain ⟨x, hact, hkey⟩ := writer?_eq_some_iff.mp hw
  cases c with
  | update space name mutate =>
    have hwritten : written? x ≠ none := by simp [hkey]
    obtain ⟨v, -, a, read, b, e, w, k, -, -, hwrite, -, -, hold, hv, hnew⟩ :=
      replaced_of_written hi hbounded h hs hact hwritten
    rw [hact] at hwrite
    cases hwrite
    obtain rfl : space.volumeKey name = key := Option.some.inj hkey
    rw [hs.before_eq] at hold
    rw [hs.after_eq] at hnew
    exact ⟨rfl, w, v, hold, hv, hnew⟩
  | create space v =>
    rw [ClientCall.task_create] at hi
    obtain ⟨rfl, hu⟩ := exchange_of_one hi h hs hact
    cases hget : Memory.get? t.state (space.volumeKey v.name) with
    | none =>
      rw [Memory.step_create_of_none hget] at hkey hu
      obtain rfl : space.volumeKey v.name = key := Option.some.inj hkey
      rw [hu]
      exact ⟨rfl, stored_of_get?_eq_none hget, stored_write _ _ v⟩
    | some e =>
      rw [Memory.step_create_of_some hget] at hkey
      cases hkey
  | set space v =>
    rw [ClientCall.task_set] at hi
    obtain ⟨rfl, hu⟩ := exchange_of_one hi h hs hact
    obtain rfl : space.volumeKey v.name = key := Option.some.inj hkey
    rw [hu]
    exact ⟨rfl, stored_write _ _ v⟩
  | delete space name =>
    obtain ⟨hname, -, hnone⟩ := erased_of_writer? hi h hs hw
    exact ⟨hname, hnone⟩

theorem count_le_one_of_makes (hi : s.tasks i = c.task.bind fun r => .done (f r))
    (h : Run s tr t) (key : String) : (writers key tr).count i ≤ 1 := by
  obtain ⟨w, -, -, hl | ⟨p, x, o, hl, hp, -, -, -⟩⟩ := settled_of_makes hi h
  · rw [count_writers, hl.1.countP_eq_zero]
    exact Nat.zero_le 1
  · rw [count_writers, hl, List.countP_append, hp.countP_eq_zero, Nat.zero_add]
    exact List.countP_le_length

/-- Such a task has written its key if and only if its call is done and says so. -/
theorem mem_writers_of_settled {w : Task (interface.sum M) (Except Error Outcome)}
    (hsettled : c.Settled (exchanges i tr) w) (key : String) :
    i ∈ writers key tr ↔ c.key = key ∧ ∃ o, w = .done (.ok o) ∧ o.wrote = true := by
  rw [← List.count_pos_iff, count_writers]
  rcases hsettled with ⟨hl, hnone⟩ | ⟨p, x, o, hl, hp, hx, hdone, hwrote⟩
  · rw [hl.countP_eq_zero]
    constructor
    · intro hpos
      exact absurd hpos (Nat.lt_irrefl 0)
    · rintro ⟨-, o, ho, hwrote⟩
      rw [hnone o ho] at hwrote
      cases hwrote
  · rw [hl, List.countP_append, hp.countP_eq_zero, Nat.zero_add, List.countP_singleton, hx]
    constructor
    · intro hpos
      have hkey : c.key = key := by
        by_contra hne
        simp [hne] at hpos
      exact ⟨hkey, o, hdone, hwrote⟩
    · rintro ⟨rfl, -⟩
      simp

end Steps

end HostAgent.Store
