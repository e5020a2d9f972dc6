import HostAgent.Proofs.Container.Engine
import HostAgent.Proofs.Container.Launch

namespace HostAgent.Executor

/-!
# The account of the containers

What each phase of a request says of its container, and how one exchange moves a request and the
engine along: it changes the container of the request and no other. The invariant accounts for each
container that came in: it is that of one request, in the state that the phase of this request asks
for, and the containers that were there before stay as they were.
-/

open Container (Engine Simulated)

/-- What the phase of a request for an instance of a name says of the containers. -/
def Phase.Holds (name : Option String) (e : Engine) : Phase → Prop
  | .fresh | .doomed _ | .gone none => True
  | .created id => ∃ n, name = some n ∧ e.containers.get? id = some ⟨n, "", false⟩
  | .started id | .kept id =>
    ∃ n address, name = some n ∧ e.containers.get? id = some ⟨n, address, true⟩
  | .gone (some id) => e.containers.get? id = none

theorem Phase.Holds.congr {p : Phase} {name : Option String} {e e' : Engine} (h : p.Holds name e)
    (hsame : ∀ id, p.id? = some id → e'.containers.get? id = e.containers.get? id) :
    p.Holds name e' := by
  cases p with
  | fresh | doomed id => trivial
  | created id | started id | kept id =>
    simp only [Holds, hsame id rfl]
    exact h
  | gone id =>
    cases id with
    | none => trivial
    | some id => exact (hsame id rfl).trans h

/-- A request moves from one phase to another, and the engine with it: only the container of the
request changes, which may be a new one. -/
structure Moves (name : Option String) (p : Phase) (e : Engine) (q : Phase) (e' : Engine) :
    Prop where
  holds : q.Holds name e'
  frame : ∀ id, q.id? ≠ some id → e'.containers.get? id = e.containers.get? id
  grows : e.created ≤ e'.created
  identity : q.id? = p.id? ∨
    p.id? = none ∧ q.id? = some (Engine.idOf (e.created + 1)) ∧ e'.created = e.created + 1

theorem moves_of_eq {name : Option String} {p q : Phase} {e e' : Engine} (hq : q.Holds name e)
    (hid : q.id? = p.id?) (h : e'.containers = e.containers ∧ e'.created = e.created) :
    Moves name p e q e' where
  holds := hq.congr fun id _ => by rw [h.1]
  frame := fun id _ => by rw [h.1]
  grows := Nat.le_of_eq h.2.symm
  identity := .inl hid

/-- A request moves on with its container, the record of which is put in place. -/
theorem moves_of_insert {name : Option String} {p q : Phase} {e e' : Engine} {id : String}
    {c : Simulated} (hcontainers : e'.containers = e.containers.insert id c) (hq : q.id? = some id)
    (hholds : e'.containers.get? id = some c → q.Holds name e') (hgrows : e.created ≤ e'.created)
    (hidentity : q.id? = p.id? ∨
      p.id? = none ∧ q.id? = some (Engine.idOf (e.created + 1)) ∧ e'.created = e.created + 1) :
    Moves name p e q e' where
  holds := hholds (by rw [hcontainers, SortedMap.get?_insert_self])
  frame := by
    intro j hj
    rw [hcontainers]
    refine SortedMap.get?_insert_ne _ _ ?_
    rintro rfl
    exact hj hq
  grows := hgrows
  identity := hidentity

section Calls

variable {name : Option String} {e : Engine} {id : String}

theorem moves_of_create {spec : Container.Spec} (hname : name = some spec.name) :
    Moves name .fresh e
      ((creation name).next .fresh (.inl (.create spec)) (e.step (.create spec)).1)
      (e.step (.create spec)).2 := by
  cases hs : e.step (.create spec) with
  | mk a e' =>
    match a with
    | .ok id =>
      obtain ⟨-, rfl, hcreated, hcontainers⟩ := Engine.step_create_ok hs
      exact moves_of_insert hcontainers rfl (fun h => ⟨spec.name, hname, h⟩)
        (Nat.le.intro hcreated.symm) (.inr ⟨rfl, rfl, hcreated⟩)
    | .error x => exact moves_of_eq trivial rfl (Engine.step_create_error hs)

theorem moves_of_start (hp : (Phase.created id).Holds name e) :
    Moves name (.created id) e
      ((creation name).next (.created id) (.inl (.start id)) (e.step (.start id)).1)
      (e.step (.start id)).2 := by
  cases hs : e.step (.start id) with
  | mk a e' =>
    match a with
    | .ok () =>
      obtain ⟨n, hn, hget⟩ := hp
      obtain ⟨c, hc, hcreated, hcontainers⟩ := Engine.step_start_ok hs
      rw [hget] at hc
      cases hc
      exact moves_of_insert hcontainers rfl (fun h => ⟨n, e.address, hn, h⟩)
        (Nat.le_of_eq hcreated.symm) (.inl rfl)
    | .error x => exact moves_of_eq trivial rfl (Engine.step_start_error hs)

theorem moves_of_inspect (hp : (Phase.started id).Holds name e) :
    Moves name (.started id) e
      ((creation name).next (.started id) (.inl (.inspect id)) (e.step (.inspect id)).1)
      (e.step (.inspect id)).2 := by
  have hsame := Engine.step_inspect e id
  match (e.step (.inspect id)).1 with
  | .ok s => exact moves_of_eq hp rfl hsame
  | .error x => exact moves_of_eq trivial rfl hsame

theorem moves_of_remove (name : Option String) (e : Engine) (id : String) (volumes : Bool) :
    Moves name (.doomed id) e (.gone (some id)) (e.step (.remove id volumes)).2 := by
  obtain ⟨hcontainers, hcreated⟩ := Engine.step_remove e id volumes
  refine ⟨?_, ?_, Nat.le_of_eq hcreated.symm, .inl rfl⟩
  · change (e.step (.remove id volumes)).2.containers.get? id = none
    rw [hcontainers, SortedMap.get?_erase_self]
  · intro j hj
    rw [hcontainers]
    refine SortedMap.get?_erase_ne _ ?_
    rintro rfl
    exact hj rfl

end Calls

/-- A call that is allowed moves the request to the phase that its answer leads to. -/
theorem moves_of_allows {name : Option String} {p : Phase} {e : Engine} {c : Container.Call}
    (hp : p.Holds name e) (hc : (creation name).allows p (.inl c)) :
    Moves name p e ((creation name).next p (.inl c) (e.step c).1) (e.step c).2 := by
  cases due_of_allows hc with
  | create hname => exact moves_of_create hname
  | start id => exact moves_of_start hp
  | inspect id => exact moves_of_inspect hp
  | remove id volumes => exact moves_of_remove name e id volumes

/-- A wait is allowed when the container is there to be waited for, and changes nothing. -/
theorem moves_of_wait {name : Option String} {p : Phase} {e : Engine} {w : Probe.Wait}
    (hp : p.Holds name e) (hw : (creation name).allows p (.inr w)) (a : Except ProbeError Unit) :
    Moves name p e ((creation name).next p (.inr w) a) e := by
  cases due_of_allows hw with
  | wait id => exact moves_of_eq hp rfl ⟨rfl, rfl⟩

/-- The containers, request by request: `phases` says how far each request has come on the engine
that has grown out of the first one. -/
structure Accounted {ι : Type} (names : ι → Option String) (e₀ : Engine) (phases : ι → Phase)
    (e : Engine) : Prop where
  sound : e.Sound
  holds : ∀ i, (phases i).Holds (names i) e
  issued : ∀ i id, (phases i).id? = some id →
    (∃ k ≤ e.created, id = Engine.idOf k) ∧ e₀.containers.get? id = none
  apart : ∀ i j id, (phases i).id? = some id → (phases j).id? = some id → i = j
  others : ∀ id, (∀ i, (phases i).id? ≠ some id) → e.containers.get? id = e₀.containers.get? id

namespace Accounted

variable {ι : Type} {names : ι → Option String} {e₀ e e' : Engine}
variable {phases : ι → Phase} {i : ι} {q : Phase}

theorem fresh (h : e₀.Sound) : Accounted names e₀ (fun _ => .fresh) e₀ where
  sound := h
  holds := fun _ => trivial
  issued := fun _ _ hid => by cases hid
  apart := fun _ _ _ hid => by cases hid
  others := fun _ _ => rfl

theorem switch (h : Accounted names e₀ phases e) (hs : Engine.Switched e e') :
    Accounted names e₀ phases e' where
  sound := h.sound.of_eq hs.1 hs.2.1
  holds := fun j => (h.holds j).congr fun id _ => by rw [hs.1]
  issued := by
    rw [hs.2.1]
    exact h.issued
  apart := h.apart
  others := by
    rw [hs.1]
    exact h.others

theorem id?_ne_next (h : Accounted names e₀ phases e) (j : ι) :
    (phases j).id? ≠ some (Engine.idOf (e.created + 1)) := by
  intro hj
  obtain ⟨⟨k, hk, hid⟩, -⟩ := h.issued j _ hj
  have := Engine.idOf_injective hid
  omega

theorem id?_ne_of_moves (h : Accounted names e₀ phases e) (hm : Moves (names i) (phases i) e q e')
    {j : ι} (hj : j ≠ i) {id : String} (hid : (phases j).id? = some id) : q.id? ≠ some id := by
  intro hq
  rcases hm.identity with hsame | ⟨-, hnew, -⟩
  · rw [hsame] at hq
    exact hj (h.apart j i id hid hq)
  · rw [hnew] at hq
    rw [← hq] at hid
    exact h.id?_ne_next j hid

theorem issued_of_le (h : Accounted names e₀ phases e) (hgrows : e.created ≤ e'.created) {j : ι}
    {id : String} (hid : (phases j).id? = some id) :
    (∃ k ≤ e'.created, id = Engine.idOf k) ∧ e₀.containers.get? id = none := by
  obtain ⟨⟨k, hk, hk'⟩, hnone⟩ := h.issued j id hid
  exact ⟨⟨k, Nat.le_trans hk hgrows, hk'⟩, hnone⟩

theorem issued_of_moves (h : Accounted names e₀ phases e)
    (hm : Moves (names i) (phases i) e q e') {id : String} (hid : q.id? = some id) :
    (∃ k ≤ e'.created, id = Engine.idOf k) ∧ e₀.containers.get? id = none := by
  rcases hm.identity with hsame | ⟨-, hnew, hcreated⟩
  · rw [hsame] at hid
    exact h.issued_of_le hm.grows hid
  · rw [hnew] at hid
    cases hid
    refine ⟨⟨e.created + 1, Nat.le_of_eq hcreated.symm, rfl⟩, ?_⟩
    rw [← h.others _ h.id?_ne_next]
    exact h.sound.get?_next

variable [DecidableEq ι]

theorem id?_update {j : ι} {id : String} (hid : (Function.update phases i q j).id? = some id) :
    j = i ∧ q.id? = some id ∨ j ≠ i ∧ (phases j).id? = some id := by
  by_cases hj : j = i
  · subst hj
    rw [Function.update_self] at hid
    exact .inl ⟨rfl, hid⟩
  · rw [Function.update_of_ne hj] at hid
    exact .inr ⟨hj, hid⟩

theorem id?_ne_of_update {id' : String} (h : ∀ j, (Function.update phases i q j).id? ≠ some id')
    (hm : Moves (names i) (phases i) e q e') :
    q.id? ≠ some id' ∧ ∀ j, (phases j).id? ≠ some id' := by
  have hq : q.id? ≠ some id' := by
    have hi := h i
    rwa [Function.update_self] at hi
  refine ⟨hq, fun j hj => ?_⟩
  by_cases hji : j = i
  · subst hji
    rcases hm.identity with hsame | ⟨hnone, -, -⟩
    · exact hq (hsame.trans hj)
    · rw [hnone] at hj
      cases hj
  · have hother := h j
    rw [Function.update_of_ne hji] at hother
    exact hother hj

/-- One request moves, and all containers are accounted for as before. -/
theorem move (h : Accounted names e₀ phases e) (he : e'.Sound)
    (hm : Moves (names i) (phases i) e q e') :
    Accounted names e₀ (Function.update phases i q) e' where
  sound := he
  holds := by
    intro j
    by_cases hj : j = i
    · subst hj
      rw [Function.update_self]
      exact hm.holds
    · rw [Function.update_of_ne hj]
      exact (h.holds j).congr fun id hid => hm.frame id (h.id?_ne_of_moves hm hj hid)
  issued := by
    intro j id hid
    rcases id?_update hid with ⟨-, hid⟩ | ⟨-, hid⟩
    · exact h.issued_of_moves hm hid
    · exact h.issued_of_le hm.grows hid
  apart := by
    intro j k id hjd hkd
    rcases id?_update hjd with ⟨rfl, hq⟩ | ⟨hj, hold⟩ <;>
      rcases id?_update hkd with ⟨rfl, hq'⟩ | ⟨hk, hold'⟩
    · rfl
    · exact absurd hq (h.id?_ne_of_moves hm hk hold')
    · exact absurd hq' (h.id?_ne_of_moves hm hj hold)
    · exact h.apart j k id hold hold'
  others := by
    intro id hid
    obtain ⟨hq, hothers⟩ := id?_ne_of_update hid hm
    rw [hm.frame id hq]
    exact h.others id hothers

end Accounted

def created? : Exchange interface → Option String
  | ⟨.inl (.create _), (.ok id : Except Container.Error String)⟩ => some id
  | _ => none

/-- A container is created by a request that has none, and the request keeps its identifier. -/
theorem id?_next {name : Option String} {p : Phase} {y : Exchange interface}
    (h : (creation name).allows p y.1) :
    ((creation name).next p y.1 y.2).id? = p.id?.or (created? y) ∧
      (p.id? = none ∨ created? y = none) := by
  obtain ⟨c, a⟩ := y
  cases due_of_allows h with
  | create hname =>
    match a with
    | .ok id => exact ⟨rfl, .inl rfl⟩
    | .error x => exact ⟨rfl, .inl rfl⟩
  | start id =>
    match a with
    | .ok () => exact ⟨rfl, .inr rfl⟩
    | .error x => exact ⟨rfl, .inr rfl⟩
  | inspect id =>
    match a with
    | .ok s => exact ⟨rfl, .inr rfl⟩
    | .error x => exact ⟨rfl, .inr rfl⟩
  | remove id volumes => exact ⟨rfl, .inr rfl⟩
  | wait id w => exact ⟨rfl, .inr rfl⟩

theorem id?_next_iff {name : Option String} {p : Phase} {y : Exchange interface} {id : String}
    (h : (creation name).allows p y.1) :
    ((creation name).next p y.1 y.2).id? = some id ↔ p.id? = some id ∨ created? y = some id := by
  obtain ⟨hnext, hnone | hnone⟩ := id?_next h
  · simp [hnext, hnone]
  · simp [hnext, hnone]

end HostAgent.Executor
