import HostAgent.Proofs.Store.Change
import HostAgent.Proofs.Store.Listing
import HostAgent.Proofs.SortedMap
import Mathlib.Order.Basic

namespace HostAgent.Store

/-!
# Up to indexes

The indexes of a store count all of its writes, those of strangers as well. A client that only hands
an index back with a write, on which the write depends, does not come to know its value: beside two
stores that are the same but for their indexes it does the same, and the stores stay the same. Which
index of one store is which of the other is said by a relation that grows with the writes.
-/

variable {M : Interface} {α β : Type} {R : String → Prop} {ρ σ : Nat → Nat → Prop}

/-! ## Without indexes -/

def Entry.blind (e : Entry) : Entry := ⟨e.value, 0⟩

def Call.blind : Call → Call
  | .compareAndSet key value _ => .compareAndSet key value 0
  | c => c

def blindRead (a : Except Error (Option Entry)) : Except Error (Option Entry) :=
  a.map (Option.map Entry.blind)

def blindList (a : Except Error (List (String × Entry))) : Except Error (List (String × Entry)) :=
  a.map (List.map fun e => (e.1, e.2.blind))

def blindWrite (a : Except Error Nat) : Except Error Nat := a.map fun _ => 0

def Call.blindAnswer : (c : Call) → c.Answer → c.blind.Answer
  | .get _, a => blindRead a
  | .list _, a => blindList a
  | .set _ _, a => blindWrite a
  | .create _ _, a => blindWrite a
  | .compareAndSet _ _ _, a => blindWrite a
  | .delete _, a => a

/-- An exchange with all indexes left out. -/
def blind : Exchange (interface.sum M) → Exchange (interface.sum M)
  | ⟨.inl c, a⟩ => ⟨.inl c.blind, c.blindAnswer a⟩
  | ⟨.inr c, a⟩ => ⟨.inr c, a⟩

/-- The index on which a call makes its write depend. -/
def Call.expected? : Call → Option Nat
  | .compareAndSet _ _ index => some index
  | _ => none

/-- The index of the entry that a call has read. -/
def Call.read? : (c : Call) → c.Answer → Option Nat
  | .get _, (.ok (some e) : Except Error (Option Entry)) => some e.index
  | _, _ => none

/-! ## Calls and answers -/

/-- One call is the other one, up to an index that is related. -/
inductive SameCall (ρ : Nat → Nat → Prop) : Call → Call → Prop
  | same {c : Call} (h : c.expected? = none) : SameCall ρ c c
  | compareAndSet {i j : Nat} (key value : String) (h : ρ i j) :
      SameCall ρ (.compareAndSet key value i) (.compareAndSet key value j)

/-- Two answers are the same but for indexes, and what was read has related ones. -/
structure SameAnswer (ρ : Nat → Nat → Prop) (c c' : Call) (a : c.Answer) (a' : c'.Answer) :
    Prop where
  blind : (⟨c.blind, c.blindAnswer a⟩ : Exchange interface) = ⟨c'.blind, c'.blindAnswer a'⟩
  read : ∀ i j, c.read? a = some i → c'.read? a' = some j → ρ i j

theorem SameCall.mono {c c' : Call} (h : SameCall ρ c c') (hle : ρ ≤ σ) : SameCall σ c c' := by
  cases h with
  | same h => exact .same h
  | compareAndSet key value h => exact .compareAndSet key value (hle _ _ h)

namespace SameAnswer

theorem blindAnswer_eq {c : Call} {a a' : c.Answer} (h : SameAnswer ρ c c a a') :
    c.blindAnswer a = c.blindAnswer a' :=
  eq_of_heq (Sigma.mk.inj h.blind).2

theorem blind_eq {c c' : Call} {a : c.Answer} {a' : c'.Answer} (h : SameAnswer ρ c c' a a') :
    Store.blind (M := M) ⟨.inl c, a⟩ = Store.blind ⟨.inl c', a'⟩ :=
  congrArg (fun x : Exchange interface => (⟨.inl x.1, x.2⟩ : Exchange (interface.sum M))) h.blind

theorem of_same {c : Call} {a a' : c.Answer} (hblind : c.blindAnswer a = c.blindAnswer a')
    (hread : ∀ i j, c.read? a = some i → c.read? a' = some j → ρ i j) : SameAnswer ρ c c a a' :=
  ⟨by rw [hblind], hread⟩

/-- An answer that tells no index. -/
theorem of_unread {c c' : Call} {a : c.Answer} {a' : c'.Answer}
    (hblind : (⟨c.blind, c.blindAnswer a⟩ : Exchange interface) = ⟨c'.blind, c'.blindAnswer a'⟩)
    (hread : c.read? a = none) : SameAnswer ρ c c' a a' where
  blind := hblind
  read i j hi hj := by
    rw [hread] at hi
    cases hi

/-- What is read beside two such stores: the same failure, nothing, or one text. -/
theorem get_cases {key : String} {a a' : Except Error (Option Entry)}
    (h : SameAnswer ρ (.get key) (.get key) a a') :
    (∃ f, a = .error f ∧ a' = .error f) ∨ (a = .ok none ∧ a' = .ok none) ∨
      ∃ value i j, a = .ok (some ⟨value, i⟩) ∧ a' = .ok (some ⟨value, j⟩) ∧ ρ i j := by
  have hblind : blindRead a = blindRead a' := h.blindAnswer_eq
  rcases a with f | _ | e <;> rcases a' with f' | _ | e' <;>
    simp only [blindRead, Except.map, Option.map, reduceCtorEq, Except.ok.injEq,
      Except.error.injEq, Option.some.injEq] at hblind
  · exact .inl ⟨f, rfl, by rw [hblind]⟩
  · exact .inr (.inl ⟨rfl, rfl⟩)
  · obtain ⟨value, i⟩ := e
    obtain ⟨value', j⟩ := e'
    obtain rfl : value = value' := (Entry.mk.inj hblind).1
    exact .inr (.inr ⟨value, i, j, rfl, rfl, h.read _ _ rfl rfl⟩)

theorem compareAndSet_cases {key value : String} {i j : Nat} {b b' : Except Error Nat}
    (h : SameAnswer ρ (.compareAndSet key value i) (.compareAndSet key value j) b b') :
    (∃ f, b = .error f ∧ b' = .error f) ∨ ∃ k k', b = .ok k ∧ b' = .ok k' := by
  have hblind : blindWrite b = blindWrite b' := eq_of_heq (Sigma.mk.inj h.blind).2
  rcases b with f | k <;> rcases b' with f' | k' <;>
    simp only [blindWrite, Except.map, reduceCtorEq, Except.error.injEq] at hblind
  · exact .inl ⟨f, rfl, by rw [hblind]⟩
  · exact .inr ⟨k, k', rfl, rfl⟩

end SameAnswer

/-! ## Tasks -/

/-- A call that reads and writes keys of a region only. -/
def Call.Within (R : String → Prop) : Call → Prop
  | .list dir => ∀ u, R (Memory.below dir ++ u)
  | .get key | .set key _ | .create key _ | .compareAndSet key _ _ | .delete key => R key

/-- Two tasks do the same within a region, whatever indexes they are answered. -/
inductive Alike (R : String → Prop) : (Nat → Nat → Prop) → Task (interface.sum M) α →
    Task (interface.sum M) α → Prop
  | done {ρ : Nat → Nat → Prop} (a : α) : Alike R ρ (.done a) (.done a)
  | own {ρ : Nat → Nat → Prop} {c : M.Call}
      {next next' : (interface.sum M).Answer (.inr c) → Task (interface.sum M) α}
      (h : ∀ a, Alike R ρ (next a) (next' a)) : Alike R ρ (.ask (.inr c) next) (.ask (.inr c) next')
  | shared {ρ : Nat → Nat → Prop} {c c' : Call}
      {next : (interface.sum M).Answer (.inl c) → Task (interface.sum M) α}
      {next' : (interface.sum M).Answer (.inl c') → Task (interface.sum M) α}
      (hin : c.Within R) (hcall : SameCall ρ c c')
      (h : ∀ σ, ρ ≤ σ → ∀ a a', SameAnswer σ c c' a a' → Alike R σ (next a) (next' a')) :
      Alike R ρ (.ask (.inl c) next) (.ask (.inl c') next')

namespace Alike

variable {t t' : Task (interface.sum M) α}

theorem mono (h : Alike R ρ t t') (hle : ρ ≤ σ) : Alike R σ t t' := by
  induction h generalizing σ with
  | done a => exact .done a
  | own h ih => exact .own fun a => ih a hle
  | shared hin hcall h ih =>
    exact .shared hin (hcall.mono hle) fun τ hτ a a' ha => h τ (hle.trans hτ) a a' ha

theorem of_shared {c : Call} {next : (interface.sum M).Answer (.inl c) → Task (interface.sum M) α}
    (h : Alike R ρ (.ask (.inl c) next) t') :
    ∃ c' next', t' = .ask (.inl c') next' ∧ c.Within R ∧ SameCall ρ c c' ∧
      ∀ σ, ρ ≤ σ → ∀ a a', SameAnswer σ c c' a a' → Alike R σ (next a) (next' a') := by
  cases h with
  | shared hin hcall h => exact ⟨_, _, rfl, hin, hcall, h⟩

theorem of_own {c : M.Call} {next : (interface.sum M).Answer (.inr c) → Task (interface.sum M) α}
    (h : Alike R ρ (.ask (.inr c) next) t') :
    ∃ next', t' = .ask (.inr c) next' ∧ ∀ a, Alike R ρ (next a) (next' a) := by
  cases h with
  | own h => exact ⟨_, rfl, h⟩

theorem bind {f f' : α → Task (interface.sum M) β} (h : Alike R ρ t t')
    (hf : ∀ σ, ρ ≤ σ → ∀ a, Alike R σ (f a) (f' a)) : Alike R ρ (t.bind f) (t'.bind f') := by
  induction h with
  | done a => exact hf _ le_rfl a
  | own h ih => exact .own fun a => ih a hf
  | shared hin hcall h ih =>
    exact .shared hin hcall fun τ hτ a a' ha => ih τ hτ a a' ha fun υ hυ => hf υ (hτ.trans hυ)

theorem inr (t : Task M α) : Alike R ρ t.inr t.inr := by
  induction t with
  | done a => exact .done a
  | ask c next ih => exact .own ih

/-- Two such tasks come to the same. -/
theorem done_iff (h : Alike R ρ t t') (r : α) : t = .done r ↔ t' = .done r := by
  cases h with
  | done a => exact Iff.rfl
  | own h => simp
  | shared hin hcall h => simp

/-- An operation of one call that shows nothing of an index. -/
theorem ofOp {op : Op α} {c : Call} {g : c.Answer → Except Error α}
    {h : c.blind.Answer → Except Error α} (hop : op.run = .ask c fun a => .done (g a))
    (hg : ∀ a, h (c.blindAnswer a) = g a) (hin : c.Within R) (hnone : c.expected? = none) :
    Alike R ρ (Space.Change.ofOp (M := M) op).run (Space.Change.ofOp op).run := by
  rw [Space.Change.ofOp, hop]
  refine .shared hin (.same hnone) fun σ _ a a' ha => ?_
  change Alike R σ (.done (g a)) (.done (g a'))
  rw [← hg, ha.blindAnswer_eq, hg]
  exact .done _

end Alike

/-! ## Stores -/

/-- Two stores hold the same in a region, up to indexes. Those that are related were given by both
stores, and none of them has two partners. -/
structure SameOn (R : String → Prop) (ρ : Nat → Nat → Prop) (m m' : Memory) : Prop where
  entries : ∀ key, R key → (m.get? key).map Entry.blind = (m'.get? key).map Entry.blind
  indexes : ∀ key e e', R key → m.get? key = some e → m'.get? key = some e' → ρ e.index e'.index
  given : ∀ i j, ρ i j → i ≤ m.index ∧ j ≤ m'.index
  paired : ∀ i j i' j', ρ i j → ρ i' j' → (i = i' ↔ j = j')

namespace SameOn

variable {m m' : Memory} {key : String}

/-- At first the indexes of a store are their own partners. -/
theorem refl (R : String → Prop) (hm : m.Bounded) :
    SameOn R (fun i j => i = j ∧ i ≤ m.index) m m where
  entries _ _ := rfl
  indexes key e e' _ he he' := by
    obtain rfl := Option.some.inj (he.symm.trans he')
    exact ⟨rfl, hm key e he⟩
  given i j := by
    rintro ⟨rfl, hi⟩
    exact ⟨hi, hi⟩
  paired i j i' j' := by
    rintro ⟨rfl, -⟩ ⟨rfl, -⟩
    exact Iff.rfl

theorem get?_cases (h : SameOn R ρ m m') (hkey : R key) :
    (m.get? key = none ∧ m'.get? key = none) ∨
      ∃ value i j, m.get? key = some ⟨value, i⟩ ∧ m'.get? key = some ⟨value, j⟩ ∧ ρ i j := by
  have hentry := h.entries key hkey
  have hindex := h.indexes key
  rcases he : m.get? key with _ | ⟨value, i⟩ <;> rcases he' : m'.get? key with _ | ⟨value', j⟩ <;>
    rw [he, he'] at hentry
  · exact .inl ⟨rfl, rfl⟩
  · cases hentry
  · cases hentry
  · cases hentry
    exact .inr ⟨value, i, j, rfl, rfl, hindex _ _ hkey he he'⟩

/-- A write gives both stores an index, and these become partners. -/
theorem write (h : SameOn R ρ m m') (key value : String) :
    ∃ σ, ρ ≤ σ ∧ SameOn R σ (m.write key value) (m'.write key value) := by
  refine ⟨fun i j => ρ i j ∨ (i = m.index + 1 ∧ j = m'.index + 1), fun i j hij => .inl hij, ?_⟩
  constructor
  case entries =>
    intro k hk
    rw [Memory.get?_write, Memory.get?_write]
    split
    · rfl
    · exact h.entries k hk
  case indexes =>
    intro k e e' hk he he'
    rw [Memory.get?_write] at he he'
    split at he
    next heq =>
      rw [if_pos heq] at he'
      cases he
      cases he'
      exact .inr ⟨rfl, rfl⟩
    next hne =>
      rw [if_neg hne] at he'
      exact .inl (h.indexes k e e' hk he he')
  case given =>
    rintro i j (hij | ⟨rfl, rfl⟩)
    · obtain ⟨hi, hj⟩ := h.given i j hij
      exact ⟨Nat.le_succ_of_le hi, Nat.le_succ_of_le hj⟩
    · exact ⟨le_rfl, le_rfl⟩
  case paired =>
    rintro i j i' j' (hij | ⟨rfl, rfl⟩) (hij' | ⟨rfl, rfl⟩)
    · exact h.paired i j i' j' hij hij'
    · have := h.given i j hij
      omega
    · have := h.given i' j' hij'
      omega
    · exact iff_of_true rfl rfl

theorem erase (h : SameOn R ρ m m') (key : String) : SameOn R ρ (m.erase key) (m'.erase key) where
  entries k hk := by
    rw [Memory.get?_erase, Memory.get?_erase]
    split
    · rfl
    · exact h.entries k hk
  indexes k e e' hk he he' := by
    rw [Memory.get?_erase] at he he'
    split at he
    next => cases he
    next hne =>
      rw [if_neg hne] at he'
      exact h.indexes k e e' hk he he'
  given := h.given
  paired := h.paired

theorem children (h : SameOn R ρ m m') {dir : String} (hdir : ∀ u, R (Memory.below dir ++ u)) :
    ((m.children dir).map fun e => (e.1, e.2.blind)) =
      (m'.children dir).map fun e => (e.1, e.2.blind) := by
  have hmem : ∀ (m : Memory) k v, ((k, v) ∈ (m.children dir).map fun e => (e.1, e.2.blind)) ↔
      ∃ u, k = Memory.below dir ++ u ∧ '/' ∉ u.toList ∧ (m.get? k).map Entry.blind = some v := by
    intro m k v
    simp only [List.mem_map, Prod.exists, Prod.mk.injEq, Memory.mem_children,
      Option.map_eq_some_iff]
    constructor
    · rintro ⟨k, e, ⟨u, rfl, hu, he⟩, rfl, rfl⟩
      exact ⟨u, rfl, hu, e, he, rfl⟩
    · rintro ⟨u, rfl, hu, e, he, rfl⟩
      exact ⟨_, e, ⟨u, rfl, hu, he⟩, rfl, rfl⟩
  apply Ascending.eq_of_mem_iff
  · exact SortedMap.ascending_map Entry.blind (m.ascending_children dir)
  · exact SortedMap.ascending_map Entry.blind (m'.ascending_children dir)
  intro k v
  rw [hmem, hmem]
  refine exists_congr fun u => and_congr_right fun hk => ?_
  rw [h.entries k (hk ▸ hdir u)]

/-- A write on condition is carried out in both stores or in none. -/
theorem expected_iff (h : SameOn R ρ m m') (hkey : R key) {i j : Nat} (hij : ρ i j) :
    (m.get? key).map Entry.index = some i ↔ (m'.get? key).map Entry.index = some j := by
  rcases h.get?_cases hkey with ⟨he, he'⟩ | ⟨value, k, l, he, he', hkl⟩
  · simp [he, he']
  · simpa [he, he'] using h.paired k l i j hkl hij

/-- A call within the region is answered the same by both stores, and they stay the same. -/
theorem step (h : SameOn R ρ m m') {c c' : Call} (hin : c.Within R) (hcall : SameCall ρ c c') :
    ∃ σ, ρ ≤ σ ∧ SameOn R σ (m.step c).2 (m'.step c').2 ∧
      SameAnswer σ c c' (m.step c).1 (m'.step c').1 := by
  cases hcall with
  | compareAndSet key value hij =>
    have hexpected := h.expected_iff hin hij
    simp only [Memory.step]
    split
    next hindex =>
      rw [if_pos (hexpected.mp hindex)]
      obtain ⟨σ, hle, hsame⟩ := h.write key value
      exact ⟨σ, hle, hsame, .of_unread rfl rfl⟩
    next hindex =>
      rw [if_neg fun h => hindex (hexpected.mpr h)]
      exact ⟨ρ, le_rfl, h, .of_unread rfl rfl⟩
  | same hnone =>
    cases c with
    | get key =>
      refine ⟨ρ, le_rfl, h, .of_same ?_ ?_⟩
      · exact congrArg Except.ok (h.entries key hin)
      · intro i j hi hj
        rcases h.get?_cases hin with ⟨he, he'⟩ | ⟨value, k, l, he, he', hkl⟩
        · rw [Memory.step, he] at hi
          cases hi
        · rw [Memory.step, he] at hi
          rw [Memory.step, he'] at hj
          cases hi
          cases hj
          exact hkl
    | list dir =>
      refine ⟨ρ, le_rfl, h, .of_unread (congrArg (Sigma.mk _) ?_) rfl⟩
      exact congrArg Except.ok (h.children hin)
    | set key value =>
      obtain ⟨σ, hle, hsame⟩ := h.write key value
      exact ⟨σ, hle, hsame, .of_unread rfl rfl⟩
    | create key value =>
      rcases h.get?_cases hin with ⟨he, he'⟩ | ⟨v, i, j, he, he', -⟩
      · rw [Memory.step_create_of_none he, Memory.step_create_of_none he']
        obtain ⟨σ, hle, hsame⟩ := h.write key value
        exact ⟨σ, hle, hsame, .of_unread rfl rfl⟩
      · rw [Memory.step_create_of_some he, Memory.step_create_of_some he']
        exact ⟨ρ, le_rfl, h, .of_unread rfl rfl⟩
    | delete key =>
      refine ⟨ρ, le_rfl, h.erase key, .of_unread (congrArg (Sigma.mk _) ?_) rfl⟩
      rw [Memory.step_delete, Memory.step_delete]
      rcases h.get?_cases hin with ⟨he, he'⟩ | ⟨v, i, j, he, he', -⟩
      · rw [he, he']
      · rw [he, he']
        rfl
    | compareAndSet key value index => cases hnone

/-- A call that writes nothing of the region is nothing to the stores. -/
theorem foreign (h : SameOn R ρ m m') {c : Call}
    (hc : ∀ key, R key → c.written? (m.step c).1 ≠ some key) : SameOn R ρ (m.step c).2 m' where
  entries key hkey := by
    rw [Memory.get?_step_of_ne (hc key hkey)]
    exact h.entries key hkey
  indexes key e e' hkey he he' := by
    rw [Memory.get?_step_of_ne (hc key hkey)] at he
    exact h.indexes key e e' hkey he he'
  given i j hij :=
    ⟨(h.given i j hij).1.trans (Memory.index_le_index_step c m), (h.given i j hij).2⟩
  paired := h.paired

end SameOn

theorem Call.Within.of_written? {c : Call} (h : c.Within R) {m : Memory} {key : String}
    (hw : c.written? (m.step c).1 = some key) : R key := by
  rcases Memory.step_cases c m with ⟨hnone, -⟩ | ⟨value, hkey, -⟩ | ⟨hkey, -⟩
  · rw [hnone] at hw
    cases hw
  all_goals
    obtain rfl := Option.some.inj (hkey.symm.trans hw)
    cases c with
    | list dir => cases hkey
    | get key | set key value | create key value | compareAndSet key value index | delete key =>
      exact h

end HostAgent.Store
