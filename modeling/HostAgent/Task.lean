namespace HostAgent

/-!
# Tasks

A task is a finite tree of calls on the parts that it relies on: each node is one call, and the
answer chooses the branch. What a task does in every world is so said by the tree alone, and a
world is a function that answers calls.
-/

/-- The calls that can be made on a part, and what is answered to each. -/
structure Interface where
  Call : Type
  Answer : Call → Type

namespace Interface

def sum (I J : Interface) : Interface where
  Call := I.Call ⊕ J.Call
  Answer
    | .inl c => I.Answer c
    | .inr c => J.Answer c

def nothing : Interface where
  Call := Empty
  Answer := Empty.elim

end Interface

inductive Task (I : Interface) (α : Type) where
  | done (value : α)
  | ask (call : I.Call) (next : I.Answer call → Task I α)

namespace Task

variable {I J K : Interface} {α β : Type}

def bind (t : Task I α) (f : α → Task I β) : Task I β :=
  match t with
  | .done a => f a
  | .ask c next => .ask c fun a => (next a).bind f

instance : Monad (Task I) where
  pure := .done
  bind := bind

@[simp] theorem done_bind (a : α) (f : α → Task I β) : (Task.done a).bind f = f a := rfl

@[simp] theorem ask_bind (c : I.Call) (next : I.Answer c → Task I α) (f : α → Task I β) :
    (Task.ask c next).bind f = .ask c fun a => (next a).bind f := rfl

theorem bind_done (t : Task I α) : t.bind .done = t := by
  induction t with
  | done a => rfl
  | ask c next ih => simp [ih]

theorem bind_assoc {γ : Type} (t : Task I α) (f : α → Task I β) (g : β → Task I γ) :
    (t.bind f).bind g = t.bind fun a => (f a).bind g := by
  induction t with
  | done a => rfl
  | ask c next ih => simp [ih]

instance : LawfulMonad (Task I) :=
  LawfulMonad.mk' (Task I) (fun t => bind_done t) (fun _ _ => rfl) bind_assoc

def call (c : I.Call) : Task I (I.Answer c) := .ask c .done

/-- A task for one part as a task for another one, each call carried out there. -/
def interpret (h : (c : I.Call) → Task J (I.Answer c)) : Task I α → Task J α
  | .done a => .done a
  | .ask c next => (h c).bind fun a => (next a).interpret h

def inl (t : Task I α) : Task (I.sum J) α :=
  t.interpret fun c => .ask (.inl c) .done

def inr (t : Task J α) : Task (I.sum J) α :=
  t.interpret fun c => .ask (.inr c) .done

/-- A task that is given up when its calls have taken longer than a limit. The call that takes too
long is made all the same, but its answer comes too late. -/
def within (pace : (c : I.Call) → I.Answer c → Nat) (limit : Nat) : Task I α → Task I (Option α)
  | .done a => .done (some a)
  | .ask c next => .ask c fun a =>
    if pace c a ≤ limit then (next a).within pace (limit - pace c a) else .done none

/-- Runs a task in a world: a function that answers a call and changes the state of the world. -/
def run {σ : Type} (world : (c : I.Call) → σ → I.Answer c × σ) : Task I α → σ → α × σ
  | .done a, s => (a, s)
  | .ask c next, s =>
    let (a, s) := world c s
    (next a).run world s

theorem run_bind {σ : Type} (world : (c : I.Call) → σ → I.Answer c × σ) (t : Task I α)
    (f : α → Task I β) (s : σ) :
    (t.bind f).run world s = (f (t.run world s).1).run world (t.run world s).2 := by
  induction t generalizing s with
  | done a => rfl
  | ask c next ih => simp [run, ih]

end Task

end HostAgent
