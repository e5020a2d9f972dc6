import HostAgent.Container.Simulated

namespace HostAgent.Container

/-!
# Turns

Calls on an engine that are made one after the other, on containers that earlier ones created. What
they come to can be compared between engines that give other identifiers.
-/

/-- A call that is meant before it can be made: its container is named by the place of its creation
among those that succeeded. -/
inductive Turn where
  | create (spec : Spec)
  | start (place : Nat)
  | stop (place : Nat) (grace : Time.Span)
  | remove (place : Nat) (volumes : Bool)
  | inspect (place : Nat)
  deriving DecidableEq

/-- The call to be made after some containers were created, if its own is among them. -/
def Turn.call? (seen : List String) : Turn → Option Call
  | .create spec => some (.create spec)
  | .start place => seen[place]?.map .start
  | .stop place grace => seen[place]?.map fun id => .stop id grace
  | .remove place volumes => seen[place]?.map fun id => .remove id volumes
  | .inspect place => seen[place]?.map .inspect

/-- A turn creates a container, or is a call on one that was created. -/
theorem Turn.call?_cases {t : Turn} {seen : List String} {c : Call} (ht : t.call? seen = some c) :
    (∃ spec, t = .create spec ∧ c = .create spec) ∨
      ∃ id ∈ seen, c.id? = some id ∧
        ∀ grace, c = .stop id grace → ∃ place, t = .stop place grace := by
  cases t with
  | create spec =>
    cases ht
    exact .inl ⟨spec, rfl, rfl⟩
  | stop place grace =>
    obtain ⟨id, hid, rfl⟩ := Option.map_eq_some_iff.mp ht
    refine .inr ⟨id, List.mem_of_getElem? hid, rfl, ?_⟩
    rintro _ ⟨⟩
    exact ⟨place, rfl⟩
  | start place | remove place volumes | inspect place =>
    obtain ⟨id, hid, rfl⟩ := Option.map_eq_some_iff.mp ht
    exact .inr ⟨id, List.mem_of_getElem? hid, rfl, nofun⟩

/-- What a call has come to, up to identifiers, addresses and messages. -/
inductive Reply where
  | created
  | done
  | found (name : String) (running : Bool)
  | missing
  | conflict
  | failed
  /-- Whoever made the call is gone. -/
  | lost
  deriving DecidableEq, Repr

namespace Reply

def ofError : Error → Reply
  | .notFound _ => .missing
  | .api status _ => if status = 409 then .conflict else .failed
  | .http _ | .json _ | .failed _ => .failed

def ofAnswer {α : Type} (f : α → Reply) : Option (Except Error α) → Reply
  | none => .lost
  | some (.ok a) => f a
  | some (.error e) => .ofError e

def of : (c : Call) → Option c.Answer → Reply
  | .create _ => ofAnswer fun _ => .created
  | .inspect _ => ofAnswer fun s => .found s.name s.running
  | .ping | .start _ | .stop _ _ | .remove _ _ => ofAnswer fun _ => .done

end Reply

/-- The identifier of a container that was created. -/
def given : (c : Call) → Option c.Answer → List String
  | .create _, a =>
    match (a : Option (Except Error String)) with
    | some (.ok id) => [id]
    | _ => []
  | .ping, _ | .start _, _ | .stop _ _, _ | .remove _ _, _ | .inspect _, _ => []

/-- What turns have come to: their replies, the containers that were created, and the state. -/
structure Played (σ : Type) where
  replies : List Reply
  seen : List String
  state : σ

variable {σ : Type}

/-- Takes turns in a world, when some containers were created already. -/
def play (world : (c : Call) → σ → Option c.Answer × σ) :
    List Turn → List String → σ → Played σ
  | [], seen, s => ⟨[], seen, s⟩
  | t :: turns, seen, s =>
    match t.call? seen with
    | none => play world turns seen s
    | some c =>
      let a := (world c s).1
      let rest := play world turns (seen ++ given c a) (world c s).2
      { rest with replies := Reply.of c a :: rest.replies }

theorem play_cons_none {world : (c : Call) → σ → Option c.Answer × σ} {t : Turn}
    {seen : List String} (ht : t.call? seen = none) (turns : List Turn) (s : σ) :
    play world (t :: turns) seen s = play world turns seen s := by
  rw [play, ht]

theorem play_cons_some {world : (c : Call) → σ → Option c.Answer × σ} {t : Turn}
    {seen : List String} {c : Call} (ht : t.call? seen = some c) (turns : List Turn) (s : σ) :
    play world (t :: turns) seen s =
      { play world turns (seen ++ given c (world c s).1) (world c s).2 with
        replies := Reply.of c (world c s).1 ::
          (play world turns (seen ++ given c (world c s).1) (world c s).2).replies } := by
  rw [play, ht]

/-- Every call that the turns come to is made in a state that it suits. -/
def Throughout (world : (c : Call) → σ → Option c.Answer × σ) (P : σ → Call → Prop) :
    List Turn → List String → σ → Prop
  | [], _, _ => True
  | t :: turns, seen, s =>
    match t.call? seen with
    | none => Throughout world P turns seen s
    | some c => P s c ∧ Throughout world P turns (seen ++ given c (world c s).1) (world c s).2

instance instDecidableThroughout {world : (c : Call) → σ → Option c.Answer × σ}
    {P : σ → Call → Prop} [∀ s c, Decidable (P s c)] :
    ∀ (turns : List Turn) (seen : List String) (s : σ), Decidable (Throughout world P turns seen s)
  | [], _, _ => inferInstanceAs (Decidable True)
  | t :: turns, seen, s =>
    match h : t.call? seen with
    | none =>
      have : Decidable (Throughout world P turns seen s) := instDecidableThroughout turns seen s
      decidable_of_iff (Throughout world P turns seen s) (by rw [Throughout, h])
    | some c =>
      have : Decidable (Throughout world P turns (seen ++ given c (world c s).1) (world c s).2) :=
        instDecidableThroughout turns _ _
      decidable_of_iff
        (P s c ∧ Throughout world P turns (seen ++ given c (world c s).1) (world c s).2)
        (by rw [Throughout, h])

section Throughout

variable {world : (c : Call) → σ → Option c.Answer × σ} {P : σ → Call → Prop} {t : Turn}
variable {seen : List String}

theorem throughout_cons_none (ht : t.call? seen = none) (turns : List Turn) (s : σ) :
    Throughout world P (t :: turns) seen s ↔ Throughout world P turns seen s := by
  rw [Throughout, ht]

theorem throughout_cons_some {c : Call} (ht : t.call? seen = some c) (turns : List Turn) (s : σ) :
    Throughout world P (t :: turns) seen s ↔ P s c ∧
      Throughout world P turns (seen ++ given c (world c s).1) (world c s).2 := by
  rw [Throughout, ht]

/-- What was created stays created. -/
theorem subset_seen_play (turns : List Turn) (seen : List String) (s : σ) :
    seen ⊆ (play world turns seen s).seen := by
  induction turns generalizing seen s with
  | nil => exact fun _ h => h
  | cons t turns ih =>
    cases ht : t.call? seen with
    | none =>
      rw [play_cons_none ht]
      exact ih seen s
    | some c =>
      rw [play_cons_some ht]
      exact fun id hid => ih _ _ (List.mem_append_left _ hid)

end Throughout

end HostAgent.Container
