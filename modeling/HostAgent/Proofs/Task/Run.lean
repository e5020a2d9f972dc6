import HostAgent.Task

namespace HostAgent.Task

/-!
# Runs of tasks

A task that is carried out through another part runs as it would in the world that this part
makes. Worlds that answer alike, up to a view of their states, run a task alike.
-/

variable {I J : Interface} {α β σ τ : Type}

@[simp] theorem run_done (world : (c : I.Call) → σ → I.Answer c × σ) (a : α) (s : σ) :
    (Task.done a).run world s = (a, s) := rfl

@[simp] theorem run_ask (world : (c : I.Call) → σ → I.Answer c × σ) (c : I.Call)
    (next : I.Answer c → Task I α) (s : σ) :
    (Task.ask c next).run world s = (next (world c s).1).run world (world c s).2 := rfl

theorem run_call (world : (c : I.Call) → σ → I.Answer c × σ) (c : I.Call) (s : σ) :
    (Task.ask c .done).run world s = world c s := rfl

theorem run_ask_done (world : (c : I.Call) → σ → I.Answer c × σ) (c : I.Call) (f : I.Answer c → α)
    (s : σ) :
    (Task.ask c fun a => .done (f a)).run world s = (f (world c s).1, (world c s).2) := rfl

theorem run_map (world : (c : I.Call) → σ → I.Answer c × σ) (t : Task I α) (f : α → β) (s : σ) :
    (t.bind fun a => .done (f a)).run world s = (f (t.run world s).1, (t.run world s).2) :=
  run_bind world t _ s

theorem run_interpret (h : (c : I.Call) → Task J (I.Answer c))
    (world : (c : J.Call) → σ → J.Answer c × σ) (t : Task I α) (s : σ) :
    (t.interpret h).run world s = t.run (fun c s => (h c).run world s) s := by
  induction t generalizing s with
  | done a => rfl
  | ask c next ih =>
    rw [interpret, run_bind, run_ask]
    exact ih _ _

theorem run_congr {world world' : (c : I.Call) → σ → I.Answer c × σ}
    (h : ∀ c s, world c s = world' c s) (t : Task I α) (s : σ) :
    t.run world s = t.run world' s := by
  have heq : world = world' := funext fun c => funext fun s => h c s
  rw [heq]

/-- What every answer of a world keeps is kept by a run. -/
theorem run_invariant {world : (c : I.Call) → σ → I.Answer c × σ} {P : σ → Prop}
    (hworld : ∀ c s, P s → P (world c s).2) (t : Task I α) {s : σ} (hs : P s) :
    P (t.run world s).2 := by
  induction t generalizing s with
  | done a => exact hs
  | ask c next ih => exact ih _ (hworld c s hs)

/-- Worlds that answer alike as long as an invariant holds run a task alike. -/
theorem run_congr_of {world world' : (c : I.Call) → σ → I.Answer c × σ} {P : σ → Prop}
    (heq : ∀ c s, P s → world c s = world' c s) (hworld : ∀ c s, P s → P (world' c s).2)
    (t : Task I α) {s : σ} (hs : P s) : t.run world s = t.run world' s := by
  induction t generalizing s with
  | done a => rfl
  | ask c next ih =>
    rw [run_ask, run_ask, heq c s hs]
    exact ih _ (hworld c s hs)

/-- A world that keeps another one in its state runs a task as that one does. -/
theorem run_view {world : (c : I.Call) → σ → I.Answer c × σ}
    {inner : (c : I.Call) → τ → I.Answer c × τ} (get : σ → τ) (set : τ → σ → σ)
    (hget : ∀ x s, get (set x s) = x) (hset : ∀ x y s, set x (set y s) = set x s)
    (hself : ∀ s, set (get s) s = s)
    (hworld : ∀ c s, world c s = ((inner c (get s)).1, set (inner c (get s)).2 s))
    (t : Task I α) (s : σ) :
    t.run world s = ((t.run inner (get s)).1, set (t.run inner (get s)).2 s) := by
  induction t generalizing s with
  | done a => simp [hself]
  | ask c next ih => simp [ih, hworld, hget, hset]

/-! ## Runs with a limit -/

section Limit

variable {world : (c : I.Call) → σ → I.Answer c × σ} {pace : (c : I.Call) → I.Answer c → Nat}

/-- How long a run takes, if each call takes its time. -/
def elapsed (world : (c : I.Call) → σ → I.Answer c × σ) (pace : (c : I.Call) → I.Answer c → Nat) :
    Task I α → σ → Nat
  | .done _, _ => 0
  | .ask c next, s =>
    pace c (world c s).1 + (next (world c s).1).elapsed world pace (world c s).2

theorem within_map (t : Task I α) (f : α → β) (limit : Nat) :
    (t.bind fun a => .done (f a)).within pace limit =
      (t.within pace limit).bind fun o => .done (o.map f) := by
  induction t generalizing limit with
  | done a => rfl
  | ask c next ih =>
    simp only [ask_bind, within, ih]
    congr 1
    funext a
    split <;> rfl

/-- A run that takes no longer than the limit is as without one. -/
theorem run_within_of_le {t : Task I α} {limit : Nat} {s s' : σ} {a : α}
    (hrun : t.run world s = (a, s')) (htime : t.elapsed world pace s ≤ limit) :
    (t.within pace limit).run world s = (some a, s') := by
  induction t generalizing limit s with
  | done b =>
    cases hrun
    rfl
  | ask c next ih =>
    rw [elapsed] at htime
    have hcall : pace c (world c s).1 ≤ limit := by omega
    rw [within, run_ask, if_pos hcall]
    exact ih _ hrun (by omega)

/-- A run that takes longer than the limit is given up. -/
theorem run_within_of_lt {t : Task I α} {limit : Nat} {s : σ}
    (htime : limit < t.elapsed world pace s) :
    ∃ s', (t.within pace limit).run world s = (none, s') := by
  induction t generalizing limit s with
  | done a => exact absurd htime (Nat.not_lt_zero limit)
  | ask c next ih =>
    rw [elapsed] at htime
    rw [within, run_ask]
    split
    · exact ih _ (by omega)
    · exact ⟨_, rfl⟩

end Limit

/-! ## Tasks through other parts -/

theorem interpret_bind (h : (c : I.Call) → Task J (I.Answer c)) (t : Task I α)
    (f : α → Task I β) :
    (t.bind f).interpret h = (t.interpret h).bind fun a => (f a).interpret h := by
  induction t with
  | done a => rfl
  | ask c next ih => simp only [ask_bind, interpret, ih, bind_assoc]

theorem interpret_interpret {K : Interface} (h : (c : I.Call) → Task J (I.Answer c))
    (g : (c : J.Call) → Task K (J.Answer c)) (t : Task I α) :
    (t.interpret h).interpret g = t.interpret fun c => (h c).interpret g := by
  induction t with
  | done a => rfl
  | ask c next ih => simp only [interpret, interpret_bind, ih]

/-! ## Tasks that can fail -/

section Failing

variable {ε : Type} {world : (c : I.Call) → σ → I.Answer c × σ} {s s' : σ}

theorem run_lift {t : Task I α} {a : α} (h : t.run world s = (a, s')) :
    (ExceptT.lift t : ExceptT ε (Task I) α).run.run world s = (.ok a, s') := by
  change (t.bind fun a => .done (Except.ok a : Except ε α)).run world s = _
  rw [run_map, h]

theorem run_bind_of_ok {x : ExceptT ε (Task I) α} {f : α → ExceptT ε (Task I) β} {a : α}
    (h : x.run.run world s = (.ok a, s')) :
    (x >>= f).run.run world s = (f a).run.run world s' := by
  rw [ExceptT.run_bind]
  change Task.run world (Task.bind x.run _) s = _
  rw [run_bind, h]

end Failing

end HostAgent.Task
