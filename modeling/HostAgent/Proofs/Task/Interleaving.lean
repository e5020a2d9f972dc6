import HostAgent.Proofs.Task.Path
import Mathlib.Data.Finset.Insert
import Mathlib.Logic.Function.Basic

namespace HostAgent

/-!
# Interleavings

Tasks that are under way by the side of each other share one part of the world, and each relies on
a part of its own as well. A task makes its calls in its own order, and between any two of them the
others can make any number of theirs. What a task is answered by its own part is left open, and the
shared part may change from outside between any two calls.

Someone who awaits one task before beginning the next only has fewer interleavings than the same
tasks have among themselves.
-/

/-- A part that is shared: how it answers, and how it may change from outside. -/
structure Shared (I : Interface) where
  State : Type
  answer : (c : I.Call) → State → I.Answer c × State
  changes : State → State → Prop

namespace Interleaving

/-- What happens in one step: an exchange of one of the tasks, or a change from outside. -/
inductive Act (I M : Interface) (ι : Type) where
  | exchange (who : ι) (x : Exchange (I.sum M))
  | change

structure Moment {I : Interface} (S : Shared I) (M : Interface) (ι : Type) where
  before : S.State
  act : Act I M ι
  after : S.State

/-- The shared part, and what is left of each task. -/
structure Situation {I : Interface} (S : Shared I) (M : Interface) (ι α : Type) where
  state : S.State
  tasks : ι → Task (I.sum M) α

variable {I M : Interface} {S : Shared I} {ι α : Type} [DecidableEq ι]
variable {s t u : Situation S M ι α} {m : Moment S M ι} {tr tr' a b : List (Moment S M ι)} {i : ι}

inductive Step : Situation S M ι α → Moment S M ι → Situation S M ι α → Prop
  | shared {s : Situation S M ι α} {i : ι} {c : I.Call}
      {next : (I.sum M).Answer (.inl c) → Task (I.sum M) α} (h : s.tasks i = .ask (.inl c) next) :
      Step s ⟨s.state, .exchange i ⟨.inl c, (S.answer c s.state).1⟩, (S.answer c s.state).2⟩
        ⟨(S.answer c s.state).2, Function.update s.tasks i (next (S.answer c s.state).1)⟩
  | own {s : Situation S M ι α} {i : ι} {c : M.Call}
      {next : (I.sum M).Answer (.inr c) → Task (I.sum M) α} (h : s.tasks i = .ask (.inr c) next)
      (a : M.Answer c) :
      Step s ⟨s.state, .exchange i ⟨.inr c, a⟩, s.state⟩
        ⟨s.state, Function.update s.tasks i (next a)⟩
  | change {s : Situation S M ι α} {x : S.State} (h : S.changes s.state x) :
      Step s ⟨s.state, .change, x⟩ ⟨x, s.tasks⟩

inductive Run (s : Situation S M ι α) : List (Moment S M ι) → Situation S M ι α → Prop
  | nil : Run s [] s
  | concat {tr : List (Moment S M ι)} {m : Moment S M ι} {t u : Situation S M ι α}
      (h : Run s tr t) (hm : Step t m u) : Run s (tr ++ [m]) u

/-- The exchange of a step, if it is one of the given task. -/
def Act.of? (i : ι) : Act I M ι → Option (Exchange (I.sum M))
  | .exchange j x => if j = i then some x else none
  | .change => none

theorem Act.of?_eq_some_iff {act : Act I M ι} {x : Exchange (I.sum M)} :
    act.of? i = some x ↔ act = .exchange i x := by
  cases act with
  | exchange j y =>
    simp only [of?]
    split
    next hji =>
      subst hji
      simp
    next hji => simp [hji]
  | change => simp [of?]

def exchanges (i : ι) (tr : List (Moment S M ι)) : List (Exchange (I.sum M)) :=
  tr.filterMap fun m => m.act.of? i

@[simp] theorem exchanges_append (i : ι) (tr tr' : List (Moment S M ι)) :
    exchanges i (tr ++ tr') = exchanges i tr ++ exchanges i tr' := List.filterMap_append

theorem exchanges_concat (i : ι) (tr : List (Moment S M ι)) (m : Moment S M ι) :
    exchanges i (tr ++ [m]) = exchanges i tr ++ (m.act.of? i).toList := by
  rw [exchanges_append]
  congr 1

theorem mem_exchanges {x : Exchange (I.sum M)} :
    x ∈ exchanges i tr ↔ ∃ m ∈ tr, m.act = .exchange i x := by
  simp [exchanges, Act.of?_eq_some_iff]

theorem exists_split {p q : List (Exchange (I.sum M))} {x : Exchange (I.sum M)}
    (h : exchanges i tr = p ++ x :: q) :
    ∃ a m b, tr = a ++ m :: b ∧ m.act = .exchange i x ∧ exchanges i a = p ∧
      exchanges i b = q := by
  obtain ⟨a₀, r, rfl, ha₀, hr⟩ := List.filterMap_eq_append_iff.mp h
  obtain ⟨a₁, m, b, rfl, ha₁, hm, hb⟩ := List.filterMap_eq_cons_iff.mp hr
  have hnone : exchanges i a₁ = [] := List.filterMap_eq_nil_iff.mpr ha₁
  refine ⟨a₀ ++ a₁, m, b, by simp, Act.of?_eq_some_iff.mp hm, ?_, hb⟩
  rw [exchanges_append, hnone, List.append_nil]
  exact ha₀

/-! ## One step -/

/-- All that a step can be. -/
theorem Step.inversion (h : Step s m t) :
    (∃ i c next, s.tasks i = .ask (.inl c) next ∧
      m.act = .exchange i ⟨.inl c, (S.answer c s.state).1⟩ ∧ t.state = (S.answer c s.state).2 ∧
      t.tasks i = next (S.answer c s.state).1 ∧ ∀ j, j ≠ i → t.tasks j = s.tasks j) ∨
    (∃ i c next a, s.tasks i = .ask (.inr c) next ∧ m.act = .exchange i ⟨.inr c, a⟩ ∧
      t.state = s.state ∧ t.tasks i = next a ∧ ∀ j, j ≠ i → t.tasks j = s.tasks j) ∨
    (m.act = .change ∧ S.changes s.state t.state ∧ t.tasks = s.tasks) := by
  cases h with
  | shared h =>
    exact .inl ⟨_, _, _, h, rfl, rfl, Function.update_self _ _ _,
      fun j hj => Function.update_of_ne hj _ _⟩
  | own h a =>
    exact .inr (.inl ⟨_, _, _, a, h, rfl, rfl, Function.update_self _ _ _,
      fun j hj => Function.update_of_ne hj _ _⟩)
  | change h => exact .inr (.inr ⟨rfl, h, rfl⟩)

theorem Step.before_eq (h : Step s m t) : m.before = s.state := by
  cases h <;> rfl

theorem Step.after_eq (h : Step s m t) : m.after = t.state := by
  cases h <;> rfl

/-- Each task stays where it is or moves by the exchange of the step. -/
theorem Step.path (h : Step s m t) (i : ι) :
    Task.Path (s.tasks i) (m.act.of? i).toList (t.tasks i) := by
  have hmove : ∀ (j : ι) (c : (I.sum M).Call) (next : (I.sum M).Answer c → Task (I.sum M) α)
      (a : (I.sum M).Answer c), s.tasks j = .ask c next →
      Task.Path (s.tasks i) ((Act.exchange j ⟨c, a⟩).of? i).toList
        (Function.update s.tasks j (next a) i) := by
    intro j c next a hj
    by_cases hji : j = i
    · subst hji
      rw [Act.of?, if_pos rfl, Function.update_self, hj]
      exact .cons a (.nil _)
    · rw [Act.of?, if_neg hji, Function.update_of_ne (Ne.symm hji)]
      exact .nil _
  cases h with
  | shared h => exact hmove _ _ _ _ h
  | own h a => exact hmove _ _ _ _ h
  | change h => exact .nil _

theorem Step.answer_eq (h : Step s m t) {c : I.Call} {x : (I.sum M).Answer (.inl c)}
    (hact : m.act = .exchange i ⟨.inl c, x⟩) : S.answer c m.before = (x, m.after) := by
  cases h with
  | shared h =>
    cases hact
    rfl
  | own h a => cases hact
  | change h => cases hact

theorem Step.after_of_own (h : Step s m t) {c : M.Call} {x : (I.sum M).Answer (.inr c)}
    (hact : m.act = .exchange i ⟨.inr c, x⟩) : m.after = m.before := by
  cases h with
  | shared h => cases hact
  | own h a => rfl
  | change h => cases hact

theorem Step.changes_of_change (h : Step s m t) (hact : m.act = .change) :
    S.changes m.before m.after := by
  cases h with
  | shared h => cases hact
  | own h a => cases hact
  | change h => exact h

/-! ## Any number of steps -/

theorem Run.append (h : Run s a t) (h' : Run t b u) : Run s (a ++ b) u := by
  induction h' with
  | nil => simpa using h
  | concat _ hm ih =>
    rw [← List.append_assoc]
    exact .concat ih hm

theorem Run.exists_shared (h : Run s tr t) {c : I.Call}
    {next : (I.sum M).Answer (.inl c) → Task (I.sum M) α} {a : I.Answer c} {x : S.State}
    (hi : t.tasks i = .ask (.inl c) next) (hanswer : S.answer c t.state = (a, x)) :
    ∃ u, Run s (tr ++ [⟨t.state, .exchange i ⟨.inl c, a⟩, x⟩]) u ∧ u.state = x ∧
      u.tasks i = next a ∧ ∀ j, j ≠ i → u.tasks j = t.tasks j := by
  have hrun := h.concat (.shared hi)
  rw [hanswer] at hrun
  exact ⟨_, hrun, rfl, Function.update_self _ _ _, fun j hj => Function.update_of_ne hj _ _⟩

theorem Run.exists_own (h : Run s tr t) {c : M.Call}
    {next : (I.sum M).Answer (.inr c) → Task (I.sum M) α} (hi : t.tasks i = .ask (.inr c) next)
    (a : M.Answer c) :
    ∃ u, Run s (tr ++ [⟨t.state, .exchange i ⟨.inr c, a⟩, t.state⟩]) u ∧ u.state = t.state ∧
      u.tasks i = next a ∧ ∀ j, j ≠ i → u.tasks j = t.tasks j :=
  ⟨_, h.concat (.own hi a), rfl, Function.update_self _ _ _,
    fun _ hj => Function.update_of_ne hj _ _⟩

theorem Run.of_append (h : Run s (a ++ b) u) : ∃ t, Run s a t ∧ Run t b u := by
  generalize htr : a ++ b = tr at h
  induction h generalizing b with
  | nil =>
    obtain ⟨rfl, rfl⟩ := List.append_eq_nil_iff.mp htr
    exact ⟨s, .nil, .nil⟩
  | @concat tr' m t u hrun hm ih =>
    rcases List.eq_nil_or_concat b with rfl | ⟨b', m', rfl⟩
    · refine ⟨u, ?_, .nil⟩
      rw [List.append_nil] at htr
      subst htr
      exact .concat hrun hm
    · rw [List.concat_eq_append, ← List.append_assoc] at htr
      obtain ⟨htr', hmm⟩ := List.append_inj' htr rfl
      cases hmm
      obtain ⟨t', ha, hb⟩ := ih htr'
      exact ⟨t', ha, by simpa using Run.concat hb hm⟩

theorem Run.of_cons (h : Run s (m :: b) u) : ∃ t, Step s m t ∧ Run t b u := by
  obtain ⟨t, ht, hu⟩ := Run.of_append (a := [m]) h
  generalize htr : [m] = tr at ht
  cases ht with
  | nil => cases htr
  | @concat tr' m' t' _ hrun hm =>
    have hconcat : [] ++ [m] = tr' ++ [m'] := htr
    obtain ⟨htr', hmm⟩ := List.append_inj' hconcat rfl
    cases hmm
    subst htr'
    generalize hnil : [] = tr at hrun
    cases hrun with
    | nil => exact ⟨t, hm, hu⟩
    | concat _ _ => simp at hnil

theorem Run.of_append_cons (h : Run s (a ++ m :: b) u) :
    ∃ t t', Run s a t ∧ Step t m t' ∧ Run t' b u := by
  obtain ⟨t, ha, hb⟩ := h.of_append
  obtain ⟨t', hm, hb⟩ := hb.of_cons
  exact ⟨t, t', ha, hm, hb⟩

theorem Run.exists_step (h : Run s tr u) (hm : m ∈ tr) :
    ∃ a b t t', tr = a ++ m :: b ∧ Run s a t ∧ Step t m t' ∧ Run t' b u := by
  obtain ⟨a, b, rfl⟩ := List.append_of_mem hm
  obtain ⟨t, t', ha, hmt, hb⟩ := h.of_append_cons
  exact ⟨a, b, t, t', rfl, ha, hmt, hb⟩

/-- Each task moves along one of its paths, by its own exchanges. -/
theorem Run.path (h : Run s tr t) (i : ι) : Task.Path (s.tasks i) (exchanges i tr) (t.tasks i) := by
  induction h with
  | nil => exact .nil _
  | @concat tr m t u _ hm ih =>
    rw [exchanges_concat]
    exact ih.append (hm.path i)

/-- What a step keeps of the shared part is kept by any number of steps. -/
theorem Run.invariant {P : S.State → Prop}
    (hstep : ∀ {s m t}, Step (α := α) (ι := ι) (M := M) s m t → P s.state → P t.state)
    (h : Run s tr t) (hs : P s.state) : P t.state := by
  induction h with
  | nil => exact hs
  | concat _ hm ih => exact hstep hm ih

/-! ## Bringing tasks to their ends -/

section Ends

variable [hanswers : ∀ c, Nonempty (M.Answer c)]

theorem exists_run_done (s : Situation S M ι α) (i : ι) :
    ∃ tr t, Run s tr t ∧ (∀ m ∈ tr, ∃ x, m.act = .exchange i x) ∧
      (∃ a, t.tasks i = .done a) ∧ ∀ j, j ≠ i → t.tasks j = s.tasks j := by
  generalize htask : s.tasks i = w
  induction w generalizing s with
  | done a => exact ⟨[], s, .nil, by simp, ⟨a, htask⟩, fun _ _ => rfl⟩
  | ask c next ih =>
    have hgoal : ∀ {m t} (a : (I.sum M).Answer c), Step s m t → (∃ x, m.act = .exchange i x) →
        t.tasks = Function.update s.tasks i (next a) →
        ∃ tr t, Run s tr t ∧ (∀ m ∈ tr, ∃ x, m.act = .exchange i x) ∧
          (∃ a, t.tasks i = .done a) ∧ ∀ j, j ≠ i → t.tasks j = s.tasks j := by
      intro m t a hm hact htasks
      obtain ⟨tr, u, hrun, hacts, hdone, hothers⟩ := ih a t (by rw [htasks, Function.update_self])
      refine ⟨m :: tr, u, (Run.concat .nil hm).append hrun, ?_, hdone, fun j hj => ?_⟩
      · intro m' hm'
        rcases List.mem_cons.mp hm' with rfl | hm'
        · exact hact
        · exact hacts m' hm'
      · rw [hothers j hj, htasks, Function.update_of_ne hj]
    rcases c with c | c
    · exact hgoal _ (.shared htask) ⟨_, rfl⟩ rfl
    · obtain ⟨a⟩ := hanswers c
      exact hgoal a (.own htask a) ⟨_, rfl⟩ rfl

/-- Some tasks can be brought to their ends, one after another, while the others wait. -/
theorem exists_run_all_done (s : Situation S M ι α) (who : Finset ι) :
    ∃ tr t, Run s tr t ∧ (∀ m ∈ tr, ∃ i ∈ who, ∃ x, m.act = .exchange i x) ∧
      ∀ i ∈ who, ∃ a, t.tasks i = .done a := by
  induction who using Finset.induction_on with
  | empty => exact ⟨[], s, .nil, by simp, by simp⟩
  | insert i who hi ih =>
    obtain ⟨tr, t, hrun, hacts, hdone⟩ := ih
    obtain ⟨tr', u, hrun', hacts', hdone', hothers⟩ := exists_run_done t i
    refine ⟨tr ++ tr', u, hrun.append hrun', ?_, ?_⟩
    · intro m hm
      rcases List.mem_append.mp hm with hm | hm
      · obtain ⟨j, hj, hx⟩ := hacts m hm
        exact ⟨j, Finset.mem_insert_of_mem hj, hx⟩
      · exact ⟨i, Finset.mem_insert_self i who, hacts' m hm⟩
    · intro j hj
      rcases Finset.mem_insert.mp hj with rfl | hj
      · exact hdone'
      · rw [hothers j (ne_of_mem_of_not_mem hj hi)]
        exact hdone j hj

end Ends

end Interleaving

end HostAgent
