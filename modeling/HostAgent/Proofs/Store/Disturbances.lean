import HostAgent.Proofs.Store.LastWrite
import HostAgent.Store.Disturbed

namespace HostAgent.Store

/-!
# Faults and rivals

Before any call on the store, rivals can do to it whatever they like, and the call can fail without
having touched it. A task that writes last leaves the store as the rivals alone would have left it,
unless it has succeeded, and then it has changed its own key only.
-/

variable {M : Interface} {ε α : Type}

/-- What rivals make of a store, one after another. -/
def after (rivals : List (Memory → Memory)) (m : Memory) : Memory := rivals.foldl (fun m f => f m) m

theorem after_append (fs gs : List (Memory → Memory)) (m : Memory) :
    after (fs ++ gs) m = after gs (after fs m) := List.foldl_append

/-- An exchange of a task whose store is in memory, before which rivals act on the store. -/
inductive Meets : Memory → Exchange (interface.sum M) → List (Memory → Memory) → Memory → Prop
  | own (m : Memory) (c : M.Call) (a : M.Answer c) : Meets m ⟨.inr c, a⟩ [] m
  | failed (m : Memory) (rivals : List (Memory → Memory)) (c : Call) (e : Error) :
      Meets m ⟨.inl c, c.failed e⟩ rivals (after rivals m)
  | carried (m : Memory) (rivals : List (Memory → Memory)) (c : Call) :
      Meets m ⟨.inl c, (Memory.step c (after rivals m)).1⟩ rivals (Memory.step c (after rivals m)).2

/-- Exchanges of a task, with all that rivals do before each of them. -/
inductive Endures :
    Memory → List (Exchange (interface.sum M)) → List (Memory → Memory) → Memory → Prop
  | nil (m : Memory) : Endures m [] [] m
  | cons {m m' m'' : Memory} {x : Exchange (interface.sum M)} {fs gs : List (Memory → Memory)}
      {l : List (Exchange (interface.sum M))} (hx : Meets m x fs m') (hl : Endures m' l gs m'') :
      Endures m (x :: l) (fs ++ gs) m''

variable {m m' : Memory} {x : Exchange (interface.sum M)} {l p : List (Exchange (interface.sum M))}
variable {rivals : List (Memory → Memory)} {key : String}

theorem Meets.eq_after (h : Meets m x rivals m') (hx : written? x = none) :
    m' = after rivals m := by
  cases h with
  | own => rfl
  | failed => rfl
  | carried => exact Memory.step_of_written?_eq_none hx

theorem Meets.get?_eq_after (h : Meets m x rivals m') (hx : written? x ≠ some key) :
    m'.get? key = (after rivals m).get? key := by
  cases h with
  | own => rfl
  | failed => rfl
  | carried => exact Memory.get?_step_of_ne hx

/-- Without writes of the task, there are those of the rivals only. -/
theorem Endures.eq_after (h : Endures m l rivals m') (hl : Unwritten l) : m' = after rivals m := by
  induction h with
  | nil => rfl
  | cons hx _ ih =>
    obtain ⟨hnone, hl⟩ := List.forall_mem_cons.mp hl
    rw [after_append, ih hl, hx.eq_after hnone]

/-- Where only the last exchange can have written, all keys but the one that it wrote are as the
rivals left them. -/
theorem Endures.get?_eq_after (h : Endures m (p ++ [x]) rivals m') (hp : Unwritten p)
    (hx : written? x ≠ some key) : m'.get? key = (after rivals m).get? key := by
  induction p generalizing m rivals with
  | nil =>
    cases h with
    | cons hlast hnil =>
      cases hnil
      rw [List.append_nil]
      exact hlast.get?_eq_after hx
  | cons y p ih =>
    obtain ⟨hnone, hp⟩ := List.forall_mem_cons.mp hp
    cases h with
    | cons hy hrest =>
      rw [after_append, ← hy.eq_after hnone]
      exact ih hrest hp

/-! ## The store with faults and rivals -/

namespace Disturbed

variable {answer : (c : M.Call) → M.Answer c} {d d' : Disturbed}

def stepBeside (answer : (c : M.Call) → M.Answer c) :
    (c : (interface.sum M).Call) → Disturbed → (interface.sum M).Answer c × Disturbed
  | .inl c, d => step c d
  | .inr c, d => (answer c, d)

theorem run_eq {c : Call} {a : c.Answer} {next : c.Answer → Task (interface.sum M) α}
    {t : Task (interface.sum M) α} (ht : t = .ask (.inl c) next) (h : step c d = (a, d')) :
    t.run (stepBeside answer) d = (next a).run (stepBeside answer) d' := by
  rw [ht]
  change (next (step c d).1).run _ (step c d).2 = _
  rw [h]

/-- What is done by some of the given rivals. -/
def Acts (given : List Rival) (rivals : List (Memory → Memory)) : Prop :=
  ∀ f ∈ rivals, ∃ r ∈ given, ∃ key, f = r.act key

theorem Acts.append {given given' : List Rival} {fs gs : List (Memory → Memory)}
    (h : Acts given fs) (h' : Acts given' gs) (hsub : given' ⊆ given) : Acts given (fs ++ gs) := by
  intro f hf
  rcases List.mem_append.mp hf with hf | hf
  · exact h f hf
  · obtain ⟨r, hr, hact⟩ := h' f hf
    exact ⟨r, hsub hr, hact⟩

theorem exists_letRivalAct (c : Call) (d : Disturbed) :
    ∃ rivals, (d.letRivalAct c).memory = after rivals d.memory ∧ Acts d.rivals rivals ∧
      (d.letRivalAct c).rivals ⊆ d.rivals := by
  have hrest : ∃ rivals, d.memory = after rivals d.memory ∧ Acts d.rivals rivals ∧
      d.rivals ⊆ d.rivals := ⟨[], rfl, by simp [Acts], List.Subset.refl _⟩
  cases c with
  | compareAndSet key value index =>
    rw [letRivalAct]
    cases hrivals : d.rivals with
    | nil => simpa only [hrivals] using hrest
    | cons r rest =>
      refine ⟨[r.act key], rfl, ?_, List.subset_cons_self r rest⟩
      intro f hf
      rw [List.mem_singleton.mp hf]
      exact ⟨r, List.mem_cons_self, key, rfl⟩
  | get key | list dir | set key value | create key value | delete key => exact hrest

/-- A call either fails as it was to fail, or it is carried out after a rival has acted. -/
theorem step_cases (c : Call) (d : Disturbed) :
    (∃ e, (step c d).1 = c.failed e ∧ (step c d).2.memory = d.memory ∧
      (step c d).2.rivals = d.rivals) ∨
    ∃ d₁, d₁.memory = d.memory ∧ d₁.rivals = d.rivals ∧
      (step c d).1 = (Memory.step c (letRivalAct d₁ c).memory).1 ∧
      (step c d).2.memory = (Memory.step c (letRivalAct d₁ c).memory).2 ∧
      (step c d).2.rivals = (letRivalAct d₁ c).rivals := by
  simp only [step, takeFault]
  cases d.faults c.method with
  | nil => exact .inr ⟨{ d with calls := d.calls ++ [c] }, rfl, rfl, rfl, rfl, rfl⟩
  | cons f later =>
    cases f with
    | none =>
      let taken := fun m => if m = c.method then later else d.faults m
      exact .inr ⟨{ d with faults := taken, calls := d.calls ++ [c] }, rfl, rfl, rfl, rfl, rfl⟩
    | some e => exact .inl ⟨e, rfl, rfl, rfl⟩

/-- A reading that does not fail finds what is there. -/
theorem eq_get?_of_step {a : Option Entry} (h : step (.get key) d = (.ok a, d')) :
    a = d.memory.get? key := by
  rcases step_cases (.get key) d with ⟨e, hfailed, -⟩ | ⟨d₁, hmemory, -, hanswer, -⟩
  · rw [h] at hfailed
    cases hfailed
  · rw [h] at hanswer
    rw [← hmemory]
    exact Except.ok.inj hanswer

theorem meets_step (c : Call) (d : Disturbed) :
    ∃ rivals, Meets (M := M) d.memory ⟨.inl c, (step c d).1⟩ rivals (step c d).2.memory ∧
      Acts d.rivals rivals ∧ (step c d).2.rivals ⊆ d.rivals := by
  rcases step_cases c d with ⟨e, hanswer, hmemory, hrivals⟩ |
    ⟨d₁, hmemory₁, hrivals₁, hanswer, hmemory, hrivals⟩
  · rw [hanswer, hmemory, hrivals]
    exact ⟨[], .failed d.memory [] c e, by simp [Acts], List.Subset.refl _⟩
  · obtain ⟨rivals, hact, hacts, hsub⟩ := exists_letRivalAct c d₁
    rw [hanswer, hmemory, hrivals, hact, hmemory₁]
    rw [hrivals₁] at hacts hsub
    exact ⟨rivals, .carried d.memory rivals c, hacts, hsub⟩

/-- What a task does over such a store is one of its paths, in a world of faults and rivals. -/
theorem exists_endures_run (t : Task (interface.sum M) α) (d : Disturbed) :
    ∃ l rivals, Task.Path t l (.done (t.run (stepBeside answer) d).1) ∧
      Endures d.memory l rivals (t.run (stepBeside answer) d).2.memory ∧
      Acts d.rivals rivals := by
  induction t generalizing d with
  | done a => exact ⟨[], [], .nil _, .nil _, by simp [Acts]⟩
  | ask c next ih =>
    rw [Task.run_ask]
    rcases c with c | c
    · obtain ⟨fs, hmeets, hfs, hsub⟩ := meets_step (M := M) c d
      obtain ⟨l, gs, hpath, hendures, hgs⟩ := ih (step c d).1 (step c d).2
      exact ⟨_, fs ++ gs, .cons _ hpath, .cons hmeets hendures, hfs.append hgs hsub⟩
    · obtain ⟨l, gs, hpath, hendures, hgs⟩ := ih (answer c) d
      exact ⟨_, [] ++ gs, .cons _ hpath, .cons (.own d.memory c (answer c)) hendures, hgs⟩

end Disturbed

/-! ## All or nothing -/

/-- A task takes effect as a whole or not at all, whatever fails and whatever rivals do. It writes
once at most, its own key, and then it has succeeded. Where it has not, be it that it was given up
or that it came to an error, the store is as the rivals alone would have left it. -/
structure Atomic (owned? : α → Option String) (t : Task (interface.sum M) (Except ε α)) : Prop where
  last : WritesLast owned? t
  unharmed {l : List (Exchange (interface.sum M))} {u : Task (interface.sum M) (Except ε α)}
    {m m' : Memory} {rivals : List (Memory → Memory)} (hpath : Task.Path t l u)
    (hu : ∀ a, u ≠ .done (.ok a)) (h : Endures m l rivals m') : m' = after rivals m
  others {l : List (Exchange (interface.sum M))} {a : α} {m m' : Memory}
    {rivals : List (Memory → Memory)} (hpath : Task.Path t l (.done (.ok a)))
    (h : Endures m l rivals m') {key : String} (hkey : owned? a ≠ some key) :
    m'.get? key = (after rivals m).get? key
  disturbed (answer : (c : M.Call) → M.Answer c) (d : Disturbed) {e : ε}
    (he : (t.run (Disturbed.stepBeside answer) d).1 = .error e) :
    ∃ rivals, Disturbed.Acts d.rivals rivals ∧
      (t.run (Disturbed.stepBeside answer) d).2.memory = after rivals d.memory

theorem WritesLast.unharmed {owned? : α → Option String} {t u : Task (interface.sum M) (Except ε α)}
    (ht : WritesLast owned? t) (hpath : Task.Path t l u) (hu : ∀ a, u ≠ .done (.ok a))
    (h : Endures m l rivals m') : m' = after rivals m := by
  rcases ht l u hpath with hl | ⟨p, x, a, key, -, -, -, -, hdone⟩
  · exact h.eq_after hl
  · exact absurd hdone (hu a)

theorem WritesLast.atomic {owned? : α → Option String} {t : Task (interface.sum M) (Except ε α)}
    (ht : WritesLast owned? t) : Atomic owned? t where
  last := ht
  unharmed := ht.unharmed
  others := by
    intro l a m m' rivals hpath h key hkey
    rcases ht l _ hpath with hl | ⟨p, x, b, key', rfl, hp, hx, hkey', hdone⟩
    · rw [h.eq_after hl]
    · cases hdone
      refine h.get?_eq_after hp ?_
      rwa [hx, ← hkey']
  disturbed := by
    intro answer d e he
    obtain ⟨l, rivals, hpath, h, hacts⟩ := Disturbed.exists_endures_run t d
    rw [he] at hpath
    exact ⟨rivals, hacts, ht.unharmed hpath (by simp) h⟩

end HostAgent.Store
