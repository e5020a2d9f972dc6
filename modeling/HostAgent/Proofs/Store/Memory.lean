import HostAgent.Store.Memory
import Mathlib.Data.List.Basic

namespace HostAgent.Store

/-!
# What calls do to a store in memory

A call that is not carried out leaves the store as it is, and one that is carried out touches its
own key only. Indexes grow with the writes, so that an entry which was overtaken once, even by being
deleted and created again, never has its index back.
-/

/-- The key that a call has written or deleted, going by its answer. -/
def Call.written? : (c : Call) → c.Answer → Option String
  | .get _, _ | .list _, _ => none
  | .set key _, (.ok _ : Except Error Nat) => some key
  | .set _ _, (.error _ : Except Error Nat) => none
  | .create key _, (.ok _ : Except Error Nat) => some key
  | .create _ _, (.error _ : Except Error Nat) => none
  | .compareAndSet key _ _, (.ok _ : Except Error Nat) => some key
  | .compareAndSet _ _ _, (.error _ : Except Error Nat) => none
  | .delete key, (.ok true : Except Error Bool) => some key
  | .delete _, (_ : Except Error Bool) => none

namespace Memory

variable {m : Memory} {c : Call} {key value : String} {e : Entry} {index : Nat}

/-- A store that calls have made out of an empty one. -/
def Reachable (m : Memory) : Prop :=
  ∃ calls : List Call, calls.foldl (fun m c => (m.step c).2) empty = m

def erase (m : Memory) (key : String) : Memory := { m with entries := m.entries.erase key }

@[simp] theorem get?_erase (m : Memory) (key j : String) :
    (m.erase key).get? j = if j = key then none else m.get? j :=
  SortedMap.get?_erase m.entries key j

@[simp] theorem index_erase (m : Memory) (key : String) : (m.erase key).index = m.index := rfl

theorem erase_of_get?_eq_none (h : m.get? key = none) : m.erase key = m := by
  have hentries : m.entries.erase key = m.entries := by
    ext1 j
    rw [SortedMap.get?_erase]
    split
    next hj =>
      subst hj
      exact h.symm
    next => rfl
  rw [erase, hentries]

/-! ## One call -/

theorem step_create_of_none (h : m.get? key = none) :
    m.step (.create key value) = (.ok (m.index + 1), m.write key value) := by
  simp [step, h]

theorem step_create_of_some (h : m.get? key = some e) :
    m.step (.create key value) = (.error (.conflict key), m) := by
  simp [step, h]

theorem step_delete (m : Memory) (key : String) :
    m.step (.delete key) = (.ok (m.get? key).isSome, m.erase key) := rfl

theorem step_compareAndSet_ok {n : Nat} {m' : Memory}
    (h : m.step (.compareAndSet key value index) = (.ok n, m')) :
    (m.get? key).map Entry.index = some index ∧ m' = m.write key value := by
  simp only [step] at h
  split at h
  next hindex =>
    obtain ⟨-, rfl⟩ := Prod.mk.inj h
    exact ⟨hindex, rfl⟩
  next => cases (Prod.mk.inj h).1

theorem step_compareAndSet_error {f : Error} {m' : Memory}
    (h : m.step (.compareAndSet key value index) = (.error f, m')) :
    (m.get? key).map Entry.index ≠ some index ∧ f = .conflict key ∧ m' = m := by
  simp only [step] at h
  split at h
  next => cases (Prod.mk.inj h).1
  next hindex =>
    obtain ⟨hf, rfl⟩ := Prod.mk.inj h
    exact ⟨hindex, (Except.error.inj hf).symm, rfl⟩

/-- A call either is not carried out, or writes its key, or deletes an entry. -/
theorem step_cases (c : Call) (m : Memory) :
    (c.written? (m.step c).1 = none ∧ (m.step c).2 = m) ∨
      (∃ value, c.written? (m.step c).1 = some c.key ∧ (m.step c).2 = m.write c.key value) ∨
        (c.written? (m.step c).1 = some c.key ∧ (m.step c).2 = m.erase c.key) := by
  cases c with
  | get key => exact .inl ⟨rfl, rfl⟩
  | list dir => exact .inl ⟨rfl, rfl⟩
  | set key value => exact .inr (.inl ⟨value, rfl, rfl⟩)
  | create key value =>
    cases h : m.get? key with
    | none =>
      rw [step_create_of_none h]
      exact .inr (.inl ⟨value, rfl, rfl⟩)
    | some e =>
      rw [step_create_of_some h]
      exact .inl ⟨rfl, rfl⟩
  | compareAndSet key value index =>
    simp only [step]
    split
    · exact .inr (.inl ⟨value, rfl, rfl⟩)
    · exact .inl ⟨rfl, rfl⟩
  | delete key =>
    rw [step_delete]
    cases h : m.get? key with
    | none => exact .inl ⟨rfl, erase_of_get?_eq_none h⟩
    | some e => exact .inr (.inr ⟨rfl, rfl⟩)

theorem step_of_written?_eq_none (h : c.written? (m.step c).1 = none) : (m.step c).2 = m := by
  rcases step_cases c m with ⟨-, hm⟩ | ⟨v, hw, -⟩ | ⟨hw, -⟩
  · exact hm
  · rw [h] at hw
    cases hw
  · rw [h] at hw
    cases hw

theorem get?_step_of_ne (h : c.written? (m.step c).1 ≠ some key) :
    (m.step c).2.get? key = m.get? key := by
  rcases step_cases c m with ⟨-, hm⟩ | ⟨v, hw, hm⟩ | ⟨hw, hm⟩
  · rw [hm]
  · have hne : key ≠ c.key := by
      rintro rfl
      exact h hw
    rw [hm, get?_write, if_neg hne]
  · have hne : key ≠ c.key := by
      rintro rfl
      exact h hw
    rw [hm, get?_erase, if_neg hne]

theorem index_le_index_step (c : Call) (m : Memory) : m.index ≤ (m.step c).2.index := by
  rcases step_cases c m with ⟨-, hm⟩ | ⟨v, -, hm⟩ | ⟨-, hm⟩ <;> simp [hm]

/-! ## Indexes -/

/-- No entry has an index that was not given yet. -/
def Bounded (m : Memory) : Prop := ∀ key e, m.get? key = some e → e.index ≤ m.index

theorem bounded_empty : Bounded empty := by
  intro key e h
  cases h

theorem Bounded.step (h : m.Bounded) (c : Call) : (m.step c).2.Bounded := by
  intro key e he
  rcases step_cases c m with ⟨-, hm⟩ | ⟨v, -, hm⟩ | ⟨-, hm⟩
  · rw [hm] at he ⊢
    exact h key e he
  · rw [hm, get?_write] at he
    rw [hm, index_write]
    split at he
    · cases he
      exact Nat.le_refl _
    · exact Nat.le_succ_of_le (h key e he)
  · rw [hm, get?_erase] at he
    rw [hm, index_erase]
    split at he
    · cases he
    · exact h key e he

theorem Reachable.bounded (h : m.Reachable) : m.Bounded := by
  obtain ⟨calls, rfl⟩ := h
  suffices ∀ m : Memory, m.Bounded → (calls.foldl (fun m c => (m.step c).2) m).Bounded from
    this empty bounded_empty
  induction calls with
  | nil => exact fun m hm => hm
  | cons c calls ih => exact fun m hm => ih _ (hm.step c)

/-- An entry was overtaken: its index was given, and its key is absent or has a later one. -/
def Overtaken (m : Memory) (key : String) (e : Entry) : Prop :=
  e.index ≤ m.index ∧ ∀ e', m.get? key = some e' → e.index < e'.index

theorem overtaken_of_written? (hle : e.index ≤ m.index)
    (h : c.written? (m.step c).1 = some key) : (m.step c).2.Overtaken key e := by
  rcases step_cases c m with ⟨hw, -⟩ | ⟨v, hw, hm⟩ | ⟨hw, hm⟩
  · rw [h] at hw
    cases hw
  · rw [h] at hw
    cases hw
    rw [hm]
    refine ⟨Nat.le_succ_of_le hle, ?_⟩
    intro e' he'
    rw [get?_write, if_pos rfl] at he'
    cases he'
    exact Nat.lt_succ_of_le hle
  · rw [h] at hw
    cases hw
    rw [hm]
    refine ⟨hle, ?_⟩
    intro e' he'
    rw [get?_erase, if_pos rfl] at he'
    cases he'

theorem Overtaken.step (h : m.Overtaken key e) (c : Call) : (m.step c).2.Overtaken key e := by
  by_cases hw : c.written? (m.step c).1 = some key
  · exact overtaken_of_written? h.1 hw
  · refine ⟨Nat.le_trans h.1 (index_le_index_step c m), ?_⟩
    rw [get?_step_of_ne hw]
    exact h.2

theorem Overtaken.index_ne (h : m.Overtaken key e) :
    (m.get? key).map Entry.index ≠ some e.index := by
  intro hindex
  obtain ⟨e', he', heq⟩ := Option.map_eq_some_iff.mp hindex
  exact absurd heq (Nat.ne_of_gt (h.2 e' he'))

end Memory

end HostAgent.Store
