import HostAgent.Proofs.Task.Interleaving

namespace HostAgent

/-!
# Protocols

A protocol says which calls may follow which answers. A task that obeys one does so in every world,
and so does each task of an interleaving, in the phase that its own exchanges have led to.
-/

/-- The calls that are allowed in each phase, and the phase that an answer leads to. -/
structure Protocol (I : Interface) (Phase : Type) where
  allows : Phase → I.Call → Prop
  next : Phase → (c : I.Call) → I.Answer c → Phase

variable {I M : Interface} {Phase : Type} {α β : Type}

def Protocol.after (P : Protocol I Phase) (p : Phase) (l : List (Exchange I)) : Phase :=
  l.foldl (fun p x => P.next p x.1 x.2) p

@[simp] theorem Protocol.after_nil (P : Protocol I Phase) (p : Phase) : P.after p [] = p := rfl

@[simp] theorem Protocol.after_concat (P : Protocol I Phase) (p : Phase) (l : List (Exchange I))
    (x : Exchange I) : P.after p (l ++ [x]) = P.next (P.after p l) x.1 x.2 := by
  simp [Protocol.after]

namespace Task

variable {P : Protocol I Phase} {ends ends' : Phase → α → Prop} {t u : Task I α} {p : Phase}

/-- From a phase on, a task makes allowed calls only, whatever it is answered, and what it comes to
fits the phase in which it ends. -/
def Obeys (P : Protocol I Phase) (ends : Phase → α → Prop) : Task I α → Phase → Prop
  | .done a, p => ends p a
  | .ask c next, p => P.allows p c ∧ ∀ a, (next a).Obeys P ends (P.next p c a)

theorem obeys_done {a : α} (h : ends p a) : (Task.done a : Task I α).Obeys P ends p := h

theorem obeys_ask {c : I.Call} {next : I.Answer c → Task I α} (hc : P.allows p c)
    (hnext : ∀ a, (next a).Obeys P ends (P.next p c a)) : (Task.ask c next).Obeys P ends p :=
  ⟨hc, hnext⟩

theorem Obeys.bind {ends' : Phase → β → Prop} {f : α → Task I β} (h : t.Obeys P ends p)
    (hf : ∀ p a, ends p a → (f a).Obeys P ends' p) : (t.bind f).Obeys P ends' p := by
  induction t generalizing p with
  | done a => exact hf p a h
  | ask c next ih => exact obeys_ask h.1 fun a => ih a (h.2 a)

theorem Obeys.mono (h : t.Obeys P ends p) (hends : ∀ p a, ends p a → ends' p a) :
    t.Obeys P ends' p := by
  rw [← bind_done t]
  exact h.bind fun p a ha => obeys_done (hends p a ha)

theorem Obeys.path (h : t.Obeys P ends p) {l : List (Exchange I)} (hl : Path t l u) :
    u.Obeys P ends (P.after p l) := by
  induction hl generalizing p with
  | nil => exact h
  | cons a _ ih => exact ih (h.2 a)

end Task

namespace Interleaving

variable {S : Shared I} {ι : Type} [DecidableEq ι]
variable {s t : Situation S M ι α} {m : Moment S M ι} {tr : List (Moment S M ι)} {i : ι}

/-- In an interleaving, a task makes the calls that are allowed after its own exchanges. -/
theorem Run.obeys {P : Protocol (I.sum M) Phase} {ends : Phase → α → Prop} {p : Phase}
    (h : Run s tr t) (hi : (s.tasks i).Obeys P ends p) :
    (t.tasks i).Obeys P ends (P.after p (exchanges i tr)) :=
  hi.path (h.path i)

theorem Step.asks (h : Step s m t) {x : Exchange (I.sum M)} (hact : m.act = .exchange i x) :
    ∃ next, s.tasks i = .ask x.1 next := by
  cases h with
  | shared h =>
    cases hact
    exact ⟨_, h⟩
  | own h a =>
    cases hact
    exact ⟨_, h⟩
  | change h => cases hact

theorem Step.allows {P : Protocol (I.sum M) Phase} {ends : Phase → α → Prop} {p : Phase}
    (h : Step s m t) (hi : (s.tasks i).Obeys P ends p) {x : Exchange (I.sum M)}
    (hact : m.act = .exchange i x) : P.allows p x.1 := by
  obtain ⟨next, hnext⟩ := h.asks hact
  rw [hnext] at hi
  exact hi.1

end Interleaving

end HostAgent
