import HostAgent.Proofs.Store.Orders
import HostAgent.Proofs.Task.Path
import Mathlib.Data.List.Induction

namespace HostAgent.Store

/-!
# Histories of a store in memory

What a store in memory has come about from are calls and their answers. Its counter is the number of
the writes among them, so that no index is ever given again, whatever was deleted in between. An
entry has the index of the write that stands for its key: the last one, unless the key was deleted
since. This is what a conditional write asks for.
-/

def Reply.written? : Reply → Option Nat
  | .written i => some i
  | _ => none

theorem Reply.written?_eq_some_iff {r : Reply} {i : Nat} :
    r.written? = some i ↔ r = .written i := by
  cases r <;> simp [written?]

namespace Memory

variable {m : Memory} {tr : List (Exchange interface)} {x y : Exchange interface} {c : Call}
variable {key key' : String} {i : Nat}

/-- A store comes about from an empty one by calls, each with its answer. -/
inductive History : List (Exchange interface) → Memory → Prop
  | nil : History [] empty
  | call {tr : List (Exchange interface)} {m : Memory} (h : History tr m) (c : Call) :
      History (tr ++ [⟨c, (m.step c).1⟩]) (m.step c).2

/-- All calls have a history. -/
theorem exists_history (calls : List Call) :
    ∃ tr, History tr (calls.foldl (fun m c => (m.step c).2) empty) ∧
      tr.map Sigma.fst = calls := by
  induction calls using List.reverseRecOn with
  | nil => exact ⟨[], .nil, rfl⟩
  | append_singleton calls c ih =>
    obtain ⟨tr, h, hcalls⟩ := ih
    rw [List.foldl_concat]
    exact ⟨_, h.call c, by rw [List.map_append, hcalls]; rfl⟩

/-! ## Writes -/

/-- A key was written, and an index was given for it. -/
def Wrote (x : Exchange interface) (key : String) (i : Nat) : Prop :=
  x.1.key = key ∧ Reply.of x.1 x.2 = .written i

/-- Of the writes and deletions of a key, the last one is the write that was given an index. -/
def Stands (tr : List (Exchange interface)) (key : String) (i : Nat) : Prop :=
  ∃ before x after, tr = before ++ x :: after ∧ Wrote x key i ∧
    ∀ y ∈ after, y.1.written? y.2 ≠ some key

/-- The indexes that writes were given, in order. -/
def given (tr : List (Exchange interface)) : List Nat :=
  tr.filterMap fun x => (Reply.of x.1 x.2).written?

theorem given_concat (tr : List (Exchange interface)) (x : Exchange interface) :
    given (tr ++ [x]) = given tr ++ (Reply.of x.1 x.2).written?.toList := by
  rw [given, List.filterMap_append]
  congr 1

theorem mem_given (h : Wrote x key i) (hx : x ∈ tr) : i ∈ given tr :=
  List.mem_filterMap.mpr ⟨x, hx, Reply.written?_eq_some_iff.mpr h.2⟩

/-- A call is answered with an index if and only if it makes the counter grow. -/
theorem written_iff (c : Call) (m : Memory) (i : Nat) :
    Reply.of c (m.step c).1 = .written i ↔ (m.step c).2.index = m.index + 1 ∧ i = m.index + 1 := by
  cases c with
  | get key | list dir | delete key => simp [step, Reply.of, Reply.ofExcept]
  | set key value => simp [step, Reply.of, Reply.ofExcept, eq_comm]
  | create key value | compareAndSet key value index =>
    rw [step]
    split <;> simp [Reply.of, Reply.ofExcept, eq_comm]

theorem wrote_iff :
    Wrote ⟨c, (m.step c).1⟩ key i ↔
      c.key = key ∧ (m.step c).2.index = m.index + 1 ∧ i = m.index + 1 := by
  rw [Wrote, written_iff]

theorem Wrote.index_eq (h : Wrote ⟨c, (m.step c).1⟩ key i) :
    (m.step c).2.index = i ∧ i = m.index + 1 := by
  obtain ⟨-, hindex, rfl⟩ := wrote_iff.mp h
  exact ⟨hindex, rfl⟩

/-- A call that fails has met a conflict, and changes nothing. -/
theorem step_failed {e : Error} (h : Reply.of c (m.step c).1 = .failed e) :
    e = .conflict c.key ∧ (m.step c).2 = m := by
  cases c with
  | get key | list dir | set key value | delete key => cases h
  | create key value =>
    cases hget : m.get? key with
    | none =>
      rw [step_create_of_none hget] at h
      cases h
    | some e =>
      rw [step_create_of_some hget] at h ⊢
      cases h
      exact ⟨rfl, rfl⟩
  | compareAndSet key value index =>
    by_cases hindex : (m.get? key).map Entry.index = some index
    · rw [step, if_pos hindex] at h
      cases h
    · rw [step, if_neg hindex] at h ⊢
      cases h
      exact ⟨rfl, rfl⟩

theorem stands_concat :
    Stands (tr ++ [x]) key i ↔
      Wrote x key i ∨ x.1.written? x.2 ≠ some key ∧ Stands tr key i := by
  constructor
  · rintro ⟨before, y, after, htr, hwrote, hafter⟩
    rcases List.eq_nil_or_concat after with rfl | ⟨rest, z, rfl⟩
    · obtain ⟨-, hx⟩ := List.append_inj' htr rfl
      obtain rfl := List.singleton_inj.mp hx
      exact .inl hwrote
    · rw [List.concat_eq_append] at htr hafter
      have hsplit : tr ++ [x] = (before ++ y :: rest) ++ [z] := by simpa using htr
      obtain ⟨rfl, hx⟩ := List.append_inj' hsplit rfl
      obtain rfl := List.singleton_inj.mp hx
      refine .inr ⟨hafter x (by simp), before, y, rest, rfl, hwrote, ?_⟩
      exact fun z hz => hafter z (List.mem_append_left _ hz)
  · rintro (h | ⟨hx, before, y, after, rfl, hwrote, hafter⟩)
    · exact ⟨tr, x, [], rfl, h, by simp⟩
    · refine ⟨before, y, after ++ [x], by simp, hwrote, ?_⟩
      intro z hz
      rcases List.mem_append.mp hz with hz | hz
      · exact hafter z hz
      · rwa [List.mem_singleton.mp hz]

/-! ## What a history says -/

namespace History

theorem bounded (h : History tr m) : m.Bounded := by
  induction h with
  | nil => exact bounded_empty
  | call h c ih => exact ih.step c

/-- A key is stored under the index of the write that stands for it. -/
theorem stands_iff (h : History tr m) :
    Stands tr key i ↔ (m.get? key).map Entry.index = some i := by
  induction h with
  | nil =>
    constructor
    · rintro ⟨before, x, after, htr, -⟩
      simp at htr
    · rintro ⟨⟩
  | @call tr m h c ih =>
    rw [stands_concat, wrote_iff, ih]
    rcases step_cases c m with ⟨hw, hm⟩ | ⟨v, hw, hm⟩ | ⟨hw, hm⟩
    · simp [hw, hm]
    · by_cases hkey : c.key = key
      · subst hkey
        simp [hw, hm, eq_comm]
      · simp [hw, hm, hkey, Ne.symm hkey]
    · by_cases hkey : c.key = key
      · subst hkey
        simp [hw, hm]
      · simp [hw, hm, hkey, Ne.symm hkey]

/-- The writes were given one number after the other. -/
theorem given_eq (h : History tr m) : given tr = List.range' 1 m.index := by
  induction h with
  | nil => rfl
  | @call tr m h c ih =>
    rw [given_concat, ih]
    cases hreply : (Reply.of c (m.step c).1).written? with
    | none =>
      have hindex : (m.step c).2.index = m.index := by
        rcases step_cases c m with ⟨-, hm⟩ | ⟨v, -, hm⟩ | ⟨-, hm⟩
        · rw [hm]
        · have hgrown := (written_iff c m (m.index + 1)).mpr ⟨by rw [hm, index_write], rfl⟩
          rw [Reply.written?_eq_some_iff.mpr hgrown] at hreply
          cases hreply
        · rw [hm, index_erase]
      rw [hindex, Option.toList_none, List.append_nil]
    | some i =>
      obtain ⟨hindex, rfl⟩ := (written_iff c m i).mp (Reply.written?_eq_some_iff.mp hreply)
      rw [hindex, List.range'_1_concat, Nat.add_comm 1]
      rfl

/-- No answer has had an index beyond the counter. -/
theorem indexes_le_index (h : History tr m) (hx : x ∈ tr) :
    ∀ i ∈ (Reply.of x.1 x.2).indexes, i ≤ m.index := by
  induction h with
  | nil => cases hx
  | @call tr m h c ih =>
    intro i hi
    rcases List.mem_append.mp hx with hx | hx
    · exact Nat.le_trans (ih hx i hi) (index_le_index_step c m)
    · obtain rfl := List.mem_singleton.mp hx
      exact Memory.indexes_le_index h.bounded c i hi

/-- A write is given an index that no earlier answer had, on any key. -/
theorem fresh (h : History tr m) :
    tr.Pairwise fun x y => ∀ key j, Wrote y key j →
      ∀ i ∈ (Reply.of x.1 x.2).indexes, i < j := by
  induction h with
  | nil => exact .nil
  | @call tr m h c ih =>
    refine List.pairwise_append.mpr ⟨ih, List.pairwise_singleton _ _, ?_⟩
    intro x hx y hy key j hwrote i hi
    obtain rfl := List.mem_singleton.mp hy
    obtain ⟨-, rfl⟩ := hwrote.index_eq
    exact Nat.lt_succ_of_le (h.indexes_le_index hx i hi)

/-- No two keys were written under one index. -/
theorem key_eq_of_wrote (h : History tr m) (hx : x ∈ tr) (hy : y ∈ tr) (hkey : Wrote x key i)
    (hkey' : Wrote y key' i) : key = key' := by
  have hapart : tr.Pairwise fun x y => ∀ k k', Wrote x k i → ¬ Wrote y k' i := by
    refine h.fresh.imp fun {x y} hfresh k k' hx hy => ?_
    have hi : i ∈ (Reply.of x.1 x.2).indexes := by
      rw [hx.2]
      exact List.mem_singleton_self i
    exact Nat.lt_irrefl i (hfresh k' i hy i hi)
  have hforward : tr.Pairwise fun x y => Wrote x key i → Wrote y key' i → key = key' :=
    hapart.imp fun hxy hx hy => absurd hy (hxy key key' hx)
  have hback : tr.Pairwise (flip fun x y => Wrote x key i → Wrote y key' i → key = key') :=
    hapart.imp fun hxy hy hx => absurd hy (hxy key' key hx)
  have hsame : ∀ x ∈ tr, Wrote x key i → Wrote x key' i → key = key' :=
    fun x _ hx hx' => hx.1.symm.trans hx'.1
  exact hforward.forall_of_forall_of_flip hsame hback hx hy hkey hkey'

/-- An entry has the index of a write of its key. -/
theorem exists_wrote {e : Entry} (h : History tr m) (hget : m.get? key = some e) :
    ∃ x ∈ tr, Wrote x key e.index := by
  have hindex : (m.get? key).map Entry.index = some e.index := by rw [hget, Option.map_some]
  obtain ⟨before, x, after, rfl, hwrote, -⟩ := h.stands_iff.mpr hindex
  exact ⟨x, by simp, hwrote⟩

end History

/-- The counter of a store in memory is the number of its writes, which were given the numbers from
one on, so that an index is beyond all that were answered before, on any key. Entries have different
ones among these numbers. A conditional write is carried out exactly if the write that was given its
index was one of its key, which was neither written nor deleted since. What is refused, and the
deletion of what is absent, change nothing. -/
theorem indexes_tell_writes_apart (h : History tr m) :
    given tr = List.range' 1 m.index ∧
    (tr.Pairwise fun x y => ∀ key j, Wrote y key j →
      ∀ i ∈ (Reply.of x.1 x.2).indexes, i < j) ∧
    (∀ key e, m.get? key = some e → 1 ≤ e.index ∧ e.index ≤ m.index) ∧
    (∀ key key' e e', m.get? key = some e → m.get? key' = some e' → e.index = e'.index →
      key = key') ∧
    (∀ key value i, Stands tr key i →
      m.step (.compareAndSet key value i) = (.ok (m.index + 1), m.write key value)) ∧
    (∀ key value i, ¬ Stands tr key i →
      m.step (.compareAndSet key value i) = (.error (.conflict key), m)) ∧
    (∀ c e, Reply.of c (m.step c).1 = .failed e → e = .conflict c.key ∧ (m.step c).2 = m) ∧
    (∀ key, m.get? key = none → m.step (.delete key) = (.ok false, m)) := by
  refine ⟨h.given_eq, h.fresh, ?_, ?_, ?_, ?_, fun c e => step_failed, fun key hnone => ?_⟩
  · intro key e hget
    obtain ⟨x, hx, hwrote⟩ := h.exists_wrote hget
    have hgiven := mem_given hwrote hx
    rw [h.given_eq, List.mem_range'_1] at hgiven
    exact ⟨hgiven.1, h.bounded key e hget⟩
  · intro key key' e e' hget hget' hindex
    obtain ⟨x, hx, hwrote⟩ := h.exists_wrote hget
    obtain ⟨y, hy, hwrote'⟩ := h.exists_wrote hget'
    rw [← hindex] at hwrote'
    exact h.key_eq_of_wrote hx hy hwrote hwrote'
  · intro key value i hstands
    rw [step, if_pos (h.stands_iff.mp hstands)]
  · intro key value i hstands
    rw [step, if_neg fun hindex => hstands (h.stands_iff.mpr hindex)]
  · rw [step_delete, hnone, erase_of_get?_eq_none hnone]
    rfl

/-- A key is deleted and created again, while another one is written. -/
def recreating : List Call :=
  [.create "a" "x", .set "b" "y", .delete "a", .create "a" "z"]

/-- The index of the first creation is refused. The counter had moved on to that of the second. -/
theorem indexes_tell_writes_apart_recreated :
    ∃ tr m, History tr m ∧ tr.map Sigma.fst = recreating ∧ given tr = [1, 2, 3] ∧
      m.step (.compareAndSet "a" "w" 1) = (.error (.conflict "a"), m) ∧
      m.step (.compareAndSet "a" "w" 3) = (.ok 4, m.write "a" "w") := by
  obtain ⟨tr, h, hcalls⟩ := exists_history recreating
  obtain ⟨hgiven, -, -, -, hcarried, hrefused, -⟩ := indexes_tell_writes_apart h
  refine ⟨tr, _, h, hcalls, hgiven, hrefused "a" "w" 1 ?_, hcarried "a" "w" 3 ?_⟩
  · rw [h.stands_iff]
    decide
  · rw [h.stands_iff]
    decide

end Memory

end HostAgent.Store
