import HostAgent.Task

namespace HostAgent

/-!
# Paths of tasks

A path of a task is what it asked and was answered on the way to what is left of it. Whatever
answers a task, it can only move along its paths.
-/

abbrev Exchange (I : Interface) := (c : I.Call) × I.Answer c

namespace Task

variable {I J M : Interface} {α β : Type}

/-- A task comes to what is left of it by a list of exchanges. -/
inductive Path : Task I α → List (Exchange I) → Task I α → Prop
  | nil (t : Task I α) : Path t [] t
  | cons {c : I.Call} {next : I.Answer c → Task I α} (a : I.Answer c) {l : List (Exchange I)}
      {u : Task I α} (h : Path (next a) l u) : Path (.ask c next) (⟨c, a⟩ :: l) u

/-- A task can end with a value. -/
def Yields (t : Task I α) (a : α) : Prop := ∃ l, Path t l (.done a)

theorem path_done_iff {a : α} {l : List (Exchange I)} {u : Task I α} :
    Path (.done a) l u ↔ l = [] ∧ u = .done a := by
  constructor
  · intro h
    cases h
    exact ⟨rfl, rfl⟩
  · rintro ⟨rfl, rfl⟩
    exact .nil _

@[simp] theorem yields_done_iff {a b : α} : (Task.done a : Task I α).Yields b ↔ b = a := by
  simp [Yields, path_done_iff]

theorem path_ask_iff {c : I.Call} {next : I.Answer c → Task I α} {l : List (Exchange I)}
    {u : Task I α} :
    Path (.ask c next) l u ↔
      l = [] ∧ u = .ask c next ∨ ∃ a l', l = ⟨c, a⟩ :: l' ∧ Path (next a) l' u := by
  constructor
  · intro h
    cases h with
    | nil => exact .inl ⟨rfl, rfl⟩
    | cons a h => exact .inr ⟨a, _, rfl, h⟩
  · rintro (⟨rfl, rfl⟩ | ⟨a, l', rfl, h⟩)
    · exact .nil _
    · exact .cons a h

theorem Path.append {t u v : Task I α} {l l' : List (Exchange I)} (h : Path t l u)
    (h' : Path u l' v) : Path t (l ++ l') v := by
  induction h with
  | nil t => exact h'
  | cons a _ ih => exact .cons a (ih h')

theorem path_one_iff {c : I.Call} {g : I.Answer c → α} {l : List (Exchange I)} {u : Task I α} :
    Path (.ask c fun a => .done (g a)) l u ↔
      l = [] ∧ u = .ask c (fun a => .done (g a)) ∨ ∃ a, l = [⟨c, a⟩] ∧ u = .done (g a) := by
  rw [path_ask_iff]
  constructor
  · rintro (h | ⟨a, l', rfl, h⟩)
    · exact .inl h
    · obtain ⟨rfl, rfl⟩ := path_done_iff.mp h
      exact .inr ⟨a, rfl, rfl⟩
  · rintro (h | ⟨a, rfl, rfl⟩)
    · exact .inl h
    · exact .inr ⟨a, [], rfl, .nil _⟩

/-- A path through two tasks, the second of which begins with the result of the first, stays in the
first or leads through it. -/
theorem Path.of_bind {t : Task I α} {f : α → Task I β} {l : List (Exchange I)} {u : Task I β}
    (h : Path (t.bind f) l u) :
    (∃ c next, u = .ask c (fun a => (next a).bind f) ∧ Path t l (.ask c next)) ∨
      ∃ l₁ l₂ a, l = l₁ ++ l₂ ∧ Path t l₁ (.done a) ∧ Path (f a) l₂ u := by
  induction t generalizing l with
  | done a => exact .inr ⟨[], l, a, rfl, .nil _, h⟩
  | ask c next ih =>
    rcases path_ask_iff.mp h with ⟨rfl, rfl⟩ | ⟨b, l', rfl, h'⟩
    · exact .inl ⟨c, next, rfl, .nil _⟩
    · rcases ih b h' with ⟨c', next', rfl, hp⟩ | ⟨l₁, l₂, a, rfl, hp, hq⟩
      · exact .inl ⟨c', next', rfl, .cons b hp⟩
      · exact .inr ⟨⟨c, b⟩ :: l₁, l₂, a, rfl, .cons b hp, hq⟩

theorem Path.of_map {t : Task I α} {f : α → β} {l : List (Exchange I)} {u : Task I β}
    (h : Path (t.bind fun a => .done (f a)) l u) :
    ∃ u', u = u'.bind (fun a => .done (f a)) ∧ Path t l u' := by
  rcases h.of_bind with ⟨c, next, rfl, hp⟩ | ⟨l₁, l₂, a, rfl, hp, hq⟩
  · exact ⟨.ask c next, rfl, hp⟩
  · obtain ⟨rfl, rfl⟩ := path_done_iff.mp hq
    exact ⟨.done a, rfl, by simpa using hp⟩

theorem path_ask_done_iff {c : I.Call} {next : I.Answer c → Task I α} {l : List (Exchange I)}
    {b : α} :
    Path (.ask c next) l (.done b) ↔ ∃ a l', l = ⟨c, a⟩ :: l' ∧ Path (next a) l' (.done b) := by
  rw [path_ask_iff]
  constructor
  · rintro (⟨-, h⟩ | h)
    · cases h
    · exact h
  · exact .inr

theorem Path.bind {t u : Task I α} {l : List (Exchange I)} (h : Path t l u) (f : α → Task I β) :
    Path (t.bind f) l (u.bind f) := by
  induction h with
  | nil t => exact .nil _
  | cons a _ ih => exact .cons a ih

/-- What leads through two tasks leads to a result of the first and on from there. -/
theorem path_bind_done_iff {t : Task I α} {f : α → Task I β} {l : List (Exchange I)} {b : β} :
    Path (t.bind f) l (.done b) ↔
      ∃ l₁ l₂ a, l = l₁ ++ l₂ ∧ Path t l₁ (.done a) ∧ Path (f a) l₂ (.done b) := by
  constructor
  · intro h
    rcases h.of_bind with ⟨c, next, hdone, -⟩ | h
    · cases hdone
    · exact h
  · rintro ⟨l₁, l₂, a, rfl, h₁, h₂⟩
    exact (h₁.bind f).append h₂

/-- What a task with a limit asks and is answered is so without the limit. -/
theorem Path.of_within {pace : (c : I.Call) → I.Answer c → Nat} {t : Task I α} {limit : Nat}
    {l : List (Exchange I)} {u : Task I (Option α)} (h : Path (t.within pace limit) l u) :
    ∃ u', Path t l u' := by
  induction t generalizing limit l with
  | done a =>
    obtain ⟨rfl, -⟩ := path_done_iff.mp h
    exact ⟨.done a, .nil _⟩
  | ask c next ih =>
    rw [within] at h
    rcases path_ask_iff.mp h with ⟨rfl, -⟩ | ⟨a, l', rfl, h'⟩
    · exact ⟨.ask c next, .nil _⟩
    split at h'
    · obtain ⟨u', hu⟩ := ih a h'
      exact ⟨u', .cons a hu⟩
    · obtain ⟨rfl, -⟩ := path_done_iff.mp h'
      exact ⟨next a, .cons a (.nil _)⟩

/-- Where every call has an answer, every task can come to an end. -/
theorem exists_path_done [h : ∀ c, Nonempty (I.Answer c)] (t : Task I α) :
    ∃ l a, Path t l (.done a) := by
  induction t with
  | done a => exact ⟨[], a, .nil _⟩
  | ask c next ih =>
    obtain ⟨a⟩ := h c
    obtain ⟨l, b, hl⟩ := ih a
    exact ⟨_, b, .cons a hl⟩

theorem exists_path_ask [∀ c, Nonempty (I.Answer c)] (c : I.Call) (next : I.Answer c → Task I α)
    (a : I.Answer c) : ∃ l b, Path (.ask c next) (⟨c, a⟩ :: l) (.done b) := by
  obtain ⟨l, b, hl⟩ := exists_path_done (next a)
  exact ⟨l, b, .cons a hl⟩

theorem bind_done_eq_done {t : Task I α} {f : α → β} {b : β}
    (h : t.bind (fun a => .done (f a)) = .done b) : ∃ a, t = .done a ∧ f a = b := by
  cases t with
  | done a => exact ⟨a, rfl, by simpa using h⟩
  | ask c next => simp at h

@[simp] theorem inl_done (a : α) :
    (Task.done a : Task I α).inl = (.done a : Task (I.sum J) α) := rfl

@[simp] theorem inl_ask (c : I.Call) (next : I.Answer c → Task I α) :
    (Task.ask c next).inl = (.ask (.inl c) fun a => (next a).inl : Task (I.sum J) α) := rfl

@[simp] theorem inr_done (a : α) :
    (Task.done a : Task J α).inr = (.done a : Task (I.sum J) α) := rfl

@[simp] theorem inr_ask (c : J.Call) (next : J.Answer c → Task J α) :
    (Task.ask c next).inr = (.ask (.inr c) fun a => (next a).inr : Task (I.sum J) α) := rfl

theorem inr_eq_done {t : Task J α} {a : α} (h : (t.inr : Task (I.sum J) α) = .done a) :
    t = .done a := by
  cases t with
  | done b =>
    rw [inr_done] at h
    cases h
    rfl
  | ask c next => cases h

def Exchange.inr (x : Exchange J) : Exchange (I.sum J) := ⟨.inr x.1, x.2⟩

/-- A task on the second of two parts has exchanges with that part only. -/
theorem Path.of_inr {t : Task J α} {l : List (Exchange (I.sum J))} {u : Task (I.sum J) α}
    (h : Path t.inr l u) : ∃ l' u', l = l'.map Exchange.inr ∧ u = u'.inr ∧ Path t l' u' := by
  induction t generalizing l with
  | done a =>
    obtain ⟨rfl, rfl⟩ := path_done_iff.mp h
    exact ⟨[], .done a, rfl, rfl, .nil _⟩
  | ask c next ih =>
    rcases path_ask_iff.mp h with ⟨rfl, rfl⟩ | ⟨b, l', rfl, h'⟩
    · exact ⟨[], .ask c next, rfl, rfl, .nil _⟩
    · obtain ⟨l'', u', rfl, rfl, hp⟩ := ih b h'
      have hcons : Path (.ask c next) (⟨c, b⟩ :: l'') u' := .cons _ hp
      exact ⟨⟨c, b⟩ :: l'', u', rfl, rfl, hcons⟩

theorem Path.inr {t u : Task J α} {l : List (Exchange J)} (h : Path t l u) :
    Path (t.inr : Task (I.sum J) α) (l.map Exchange.inr) u.inr := by
  induction h with
  | nil t => exact .nil _
  | @cons c next a l u _ ih =>
    have hcons : Path (.ask (I := I.sum J) (.inr c) fun a => (next a).inr)
      (⟨.inr c, a⟩ :: l.map Exchange.inr) u.inr := .cons _ ih
    exact hcons

/-! ## Tasks that can fail -/

section Failing

variable {ε : Type} {m : ExceptT ε (Task I) α} {f : α → ExceptT ε (Task I) β}
variable {l : List (Exchange I)}

theorem path_pure_iff {a : α} {b : Except ε α} :
    Path (pure a : ExceptT ε (Task I) α).run l (.done b) ↔ l = [] ∧ b = .ok a := by
  change Path (.done (.ok a)) l (.done b) ↔ _
  rw [path_done_iff, done.injEq]

theorem path_throw_iff {e : ε} {b : Except ε α} :
    Path (throw e : ExceptT ε (Task I) α).run l (.done b) ↔ l = [] ∧ b = .error e := by
  change Path (.done (.error e)) l (.done b) ↔ _
  rw [path_done_iff, done.injEq]

/-- A sequence ends where its first part fails, or leads through both. -/
theorem path_bind_run_iff {b : Except ε β} :
    Path (m >>= f).run l (.done b) ↔
      (∃ e, Path m.run l (.done (.error e)) ∧ b = .error e) ∨
        ∃ l₁ l₂ a, l = l₁ ++ l₂ ∧ Path m.run l₁ (.done (.ok a)) ∧ Path (f a).run l₂ (.done b) := by
  rw [ExceptT.run_bind]
  refine path_bind_done_iff.trans ?_
  constructor
  · rintro ⟨l₁, l₂, e | a, rfl, h₁, h₂⟩
    · obtain ⟨rfl, hb⟩ := path_done_iff.mp h₂
      cases hb
      rw [List.append_nil]
      exact .inl ⟨e, h₁, rfl⟩
    · exact .inr ⟨l₁, l₂, a, rfl, h₁, h₂⟩
  · rintro (⟨e, h, rfl⟩ | ⟨l₁, l₂, a, rfl, h₁, h₂⟩)
    · exact ⟨l, [], .error e, by simp, h, .nil _⟩
    · exact ⟨l₁, l₂, .ok a, rfl, h₁, h₂⟩

/-- A part whose errors are handled leads to its value, or through the handler of its error. -/
theorem path_tryCatch_iff {h : ε → ExceptT ε (Task I) α} {b : Except ε α} :
    Path (tryCatch m h).run l (.done b) ↔
      (∃ a, Path m.run l (.done (.ok a)) ∧ b = .ok a) ∨
        ∃ l₁ l₂ e, l = l₁ ++ l₂ ∧ Path m.run l₁ (.done (.error e)) ∧
          Path (h e).run l₂ (.done b) := by
  refine path_bind_done_iff.trans ?_
  constructor
  · rintro ⟨l₁, l₂, e | a, rfl, h₁, h₂⟩
    · exact .inr ⟨l₁, l₂, e, rfl, h₁, h₂⟩
    · obtain ⟨rfl, hb⟩ := path_done_iff.mp h₂
      cases hb
      rw [List.append_nil]
      exact .inl ⟨a, h₁, rfl⟩
  · rintro (⟨a, h, rfl⟩ | ⟨l₁, l₂, e, rfl, h₁, h₂⟩)
    · exact ⟨l, [], .ok a, by simp, h, .nil _⟩
    · exact ⟨l₁, l₂, .error e, rfl, h₁, h₂⟩

/-- A part whose failure is passed over leads on from whatever it came to. -/
theorem path_lift_bind_iff {t : Task I α} {b : Except ε β} :
    Path (ExceptT.lift t >>= f).run l (.done b) ↔
      ∃ l₁ l₂ a, l = l₁ ++ l₂ ∧ Path t l₁ (.done a) ∧ Path (f a).run l₂ (.done b) := by
  have hlift : (ExceptT.lift t >>= f : ExceptT ε (Task I) β).run =
      Task.bind t fun a => (f a).run := by
    rw [ExceptT.run_bind]
    exact bind_assoc t _ _
  rw [hlift, path_bind_done_iff]

end Failing

end Task

end HostAgent
