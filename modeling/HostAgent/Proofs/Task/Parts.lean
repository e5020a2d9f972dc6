import HostAgent.Proofs.Task.Path
import HostAgent.Proofs.Task.Run

namespace HostAgent.Task

/-!
# Tasks on two parts

The parts of a task can be seen the other way round, and either of them can be carried out on a
third one. That touches neither what the task asks of the other part, nor what it comes to.
-/

variable {I J M N : Interface} {α β : Type}

/-- In every world a task runs along one of its paths to an end. -/
theorem exists_path_run {σ : Type} (world : (c : I.Call) → σ → I.Answer c × σ) (t : Task I α)
    (s : σ) : ∃ l, Path t l (.done (t.run world s).1) := by
  induction t generalizing s with
  | done a => exact ⟨[], .nil _⟩
  | ask c next ih =>
    obtain ⟨l, hl⟩ := ih (world c s).1 (world c s).2
    exact ⟨_, .cons (world c s).1 hl⟩

/-! ## The second part -/

def secondCall (h : (c : M.Call) → Task N (M.Answer c)) :
    (c : (I.sum M).Call) → Task (I.sum N) ((I.sum M).Answer c)
  | .inl c => .ask (.inl c) .done
  | .inr c => (h c).inr

/-- A task on two parts, with the calls on the second part carried out on another one. -/
def onSecond (h : (c : M.Call) → Task N (M.Answer c)) (t : Task (I.sum M) α) : Task (I.sum N) α :=
  t.interpret (secondCall h)

variable (h : (c : M.Call) → Task N (M.Answer c))

@[simp] theorem onSecond_done (a : α) :
    (Task.done a : Task (I.sum M) α).onSecond h = .done a := rfl

theorem onSecond_bind (t : Task (I.sum M) α) (f : α → Task (I.sum M) β) :
    (t.bind f).onSecond h = (t.onSecond h).bind fun a => (f a).onSecond h :=
  interpret_bind _ t f

@[simp] theorem onSecond_inl (t : Task I α) :
    (t.inl : Task (I.sum M) α).onSecond h = t.inl :=
  interpret_interpret _ (secondCall h) t

@[simp] theorem onSecond_inr (t : Task M α) :
    (t.inr : Task (I.sum M) α).onSecond h = (t.interpret h).inr := by
  have hcall : (fun c => (h c).inr.bind .done) =
      fun c => ((h c).inr : Task (I.sum N) (M.Answer c)) := funext fun c => bind_done _
  calc
    _ = t.interpret fun c => (h c).inr.bind .done := interpret_interpret _ (secondCall h) t
    _ = t.interpret fun c => (h c).inr := by rw [hcall]
    _ = (t.interpret h).inr := (interpret_interpret h _ t).symm

/-! ## The first part -/

section First

variable {l : List (Exchange (I.sum M))} {t : Task (I.sum M) α} {a : α}

def first? : Exchange (I.sum M) → Option (Exchange I)
  | ⟨.inl c, a⟩ => some ⟨c, a⟩
  | ⟨.inr _, _⟩ => none

/-- The exchanges with the first of two parts. -/
def firsts (l : List (Exchange (I.sum M))) : List (Exchange I) := l.filterMap first?

@[simp] theorem firsts_inl (c : I.Call) (a : I.Answer c) (l : List (Exchange (I.sum M))) :
    firsts ((⟨.inl c, a⟩ : Exchange (I.sum M)) :: l) = ⟨c, a⟩ :: firsts l := rfl

@[simp] theorem firsts_inr (c : M.Call) (a : M.Answer c) (l : List (Exchange (I.sum M))) :
    firsts ((⟨.inr c, a⟩ : Exchange (I.sum M)) :: l) = firsts l := rfl

@[simp] theorem firsts_append (l l' : List (Exchange (I.sum M))) :
    firsts (l ++ l') = firsts l ++ firsts l' := List.filterMap_append

@[simp] theorem firsts_map_inr (q : List (Exchange M)) :
    firsts (q.map (Exchange.inr (I := I))) = [] := by
  refine List.filterMap_eq_nil_iff.mpr fun x hx => ?_
  obtain ⟨y, -, rfl⟩ := List.mem_map.mp hx
  rfl

theorem mem_firsts {c : I.Call} {a : I.Answer c} :
    (⟨c, a⟩ : Exchange I) ∈ firsts l ↔ (⟨.inl c, a⟩ : Exchange (I.sum M)) ∈ l := by
  rw [firsts, List.mem_filterMap]
  constructor
  · rintro ⟨⟨d | d, b⟩, hmem, hfirst⟩
    · cases hfirst
      exact hmem
    · cases hfirst
  · intro hmem
    exact ⟨_, hmem, rfl⟩

theorem path_inl_append {t : Task I α} {l : List (Exchange I)} (h : Path t l (.done a))
    {f : α → Task (I.sum M) β} {l' : List (Exchange (I.sum M))} {b : β}
    (h' : Path (f a) l' (.done b)) :
    ∃ l'', Path (t.inl.bind f) l'' (.done b) ∧ firsts l'' = l ++ firsts l' := by
  induction t generalizing l with
  | done b =>
    obtain ⟨rfl, hb⟩ := path_done_iff.mp h
    cases hb
    exact ⟨l', h', rfl⟩
  | ask c next ih =>
    obtain ⟨x, l, rfl, hnext⟩ := path_ask_done_iff.mp h
    obtain ⟨l'', hl'', hfirsts⟩ := ih x hnext
    refine ⟨_, .cons (I := I.sum M) (c := .inl c) x hl'', ?_⟩
    rw [firsts_inl, hfirsts]
    rfl

theorem firsts_of_path_inl {t : Task I α} {l : List (Exchange (I.sum M))}
    (h : Path (t.inl : Task (I.sum M) α) l (.done a)) : Path t (firsts l) (.done a) := by
  induction t generalizing l with
  | done b =>
    obtain ⟨rfl, hb⟩ := path_done_iff.mp h
    cases hb
    exact .nil _
  | ask c next ih =>
    obtain ⟨x, l, rfl, hnext⟩ := path_ask_done_iff.mp h
    have hcons : Path (.ask c next) (⟨c, x⟩ :: firsts l) (.done a) := .cons _ (ih x hnext)
    exact hcons

def firstCall (g : (c : I.Call) → Task N (I.Answer c)) :
    (c : (I.sum M).Call) → Task (N.sum M) ((I.sum M).Answer c)
  | .inl c => (g c).inl
  | .inr c => .ask (.inr c) .done

/-- A task on two parts, with the calls on the first part carried out on another one. -/
def onFirst (g : (c : I.Call) → Task N (I.Answer c)) (t : Task (I.sum M) α) : Task (N.sum M) α :=
  t.interpret (firstCall g)

variable {g : (c : I.Call) → Task N (I.Answer c)}

/-- The exchanges that calls come to which are carried out one after the other. -/
inductive Carried (g : (c : I.Call) → Task N (I.Answer c)) :
    List (Exchange I) → List (Exchange N) → Prop
  | nil : Carried g [] []
  | cons {c : I.Call} {a : I.Answer c} {l : List (Exchange I)} {y y' : List (Exchange N)}
      (h : Path (g c) y (.done a)) (h' : Carried g l y') : Carried g (⟨c, a⟩ :: l) (y ++ y')

theorem Carried.of_path {l : List (Exchange (N.sum M))} (h : Path (t.onFirst g) l (.done a)) :
    ∃ x, Path t x (.done a) ∧ Carried g (firsts x) (firsts l) := by
  induction t generalizing l with
  | done b =>
    obtain ⟨rfl, hb⟩ := path_done_iff.mp h
    cases hb
    exact ⟨[], .nil _, .nil⟩
  | ask c next ih =>
    obtain ⟨l₁, l₂, b, rfl, h₁, h₂⟩ := path_bind_done_iff.mp h
    obtain ⟨x, hx, hcarried⟩ := ih b h₂
    refine ⟨⟨c, b⟩ :: x, .cons b hx, ?_⟩
    rw [firsts_append]
    cases c with
    | inl c => exact .cons (firsts_of_path_inl h₁) hcarried
    | inr c =>
      obtain ⟨b', l, rfl, hdone⟩ := path_ask_done_iff.mp h₁
      obtain ⟨rfl, -⟩ := path_done_iff.mp hdone
      exact hcarried

end First

/-! ## Parts the other way round -/

def swapCall : (c : (I.sum J).Call) → Task (J.sum I) ((I.sum J).Answer c)
  | .inl c => .ask (.inr c) .done
  | .inr c => .ask (.inl c) .done

def swap (t : Task (I.sum J) α) : Task (J.sum I) α := t.interpret swapCall

theorem swap_bind (t : Task (I.sum J) α) (f : α → Task (I.sum J) β) :
    (t.bind f).swap = t.swap.bind fun a => (f a).swap :=
  interpret_bind _ t f

@[simp] theorem swap_inl (t : Task I α) : (t.inl : Task (I.sum J) α).swap = t.inr :=
  interpret_interpret _ swapCall t

@[simp] theorem swap_inr (t : Task J α) : (t.inr : Task (I.sum J) α).swap = t.inl :=
  interpret_interpret _ swapCall t

/-! ## The calls of a task -/

variable {P Q : I.Call → Prop}

/-- All calls that a task can make are of a kind, whatever it is answered. -/
def Asks (P : I.Call → Prop) : Task I α → Prop
  | .done _ => True
  | .ask c next => P c ∧ ∀ a, (next a).Asks P

theorem asks_done (a : α) : (Task.done a : Task I α).Asks P := trivial

theorem asks_call {c : I.Call} (h : P c) : (Task.call c).Asks P := ⟨h, fun _ => trivial⟩

theorem asks_of_forall (hall : ∀ c, P c) (t : Task I α) : t.Asks P := by
  induction t with
  | done a => trivial
  | ask c next ih => exact ⟨hall c, ih⟩

theorem Asks.bind {t : Task I α} {f : α → Task I β} (ht : t.Asks P) (hf : ∀ a, (f a).Asks P) :
    (t.bind f).Asks P := by
  induction t with
  | done a => exact hf a
  | ask c next ih => exact ⟨ht.1, fun a => ih a (ht.2 a)⟩

theorem Asks.map {t : Task I α} (ht : t.Asks P) (f : α → β) :
    (t.bind fun a => .done (f a)).Asks P :=
  ht.bind fun _ => trivial

theorem Asks.interpret {R : J.Call → Prop} {g : (c : I.Call) → Task J (I.Answer c)} {t : Task I α}
    (ht : t.Asks P) (hg : ∀ c, P c → (g c).Asks R) : (t.interpret g).Asks R := by
  induction t with
  | done a => trivial
  | ask c next ih => exact (hg c ht.1).bind fun a => ih a (ht.2 a)

theorem Asks.path {t u : Task I α} {l : List (Exchange I)} (ht : t.Asks P) (hl : Path t l u) :
    ∀ x ∈ l, P x.1 := by
  induction hl with
  | nil => simp
  | cons a _ ih => exact List.forall_mem_cons.mpr ⟨ht.1, ih (ht.2 a)⟩

section Failing

variable {ε : Type} {m : ExceptT ε (Task I) α} {f : α → ExceptT ε (Task I) β}

theorem asks_pure (a : α) : (pure a : ExceptT ε (Task I) α).run.Asks P := trivial

theorem asks_throw (e : ε) : (throw e : ExceptT ε (Task I) α).run.Asks P := trivial

theorem Asks.bind_run (hm : m.run.Asks P) (hf : ∀ a, (f a).run.Asks P) : (m >>= f).run.Asks P := by
  rw [ExceptT.run_bind]
  refine Asks.bind hm fun r => ?_
  rcases r with e | a
  · trivial
  · exact hf a

theorem Asks.lift {t : Task I α} (ht : t.Asks P) :
    (ExceptT.lift t : ExceptT ε (Task I) α).run.Asks P :=
  ht.map Except.ok

end Failing

end HostAgent.Task
