import HostAgent.Proofs.Store.KeyAnswers
import HostAgent.Proofs.Store.Orders
import Mathlib.Order.Monotone.Basic

namespace HostAgent.Store

/-!
# A store in memory beside a server of keys

What a server has stored mirrors what a store in memory has, up to the indexes, and every call keeps
it so and comes to the same on both.
-/

variable {ρ : Nat → Nat} {R : Set String} {c : Call} {key dir : String}

/-! ## Further indexes -/

/-- The names of the indexes up to a number stay, and the next index gets another name. -/
def extend (ρ : Nat → Nat) (n i j : Nat) : Nat := if j ≤ n then ρ j else i + (j - n - 1)

section Extend

variable {n i j : Nat}

theorem extend_of_le (hj : j ≤ n) : extend ρ n i j = ρ j := if_pos hj

theorem extend_succ : extend ρ n i (n + 1) = i := by
  simp [extend]

theorem strictMono_extend (hρ : StrictMono ρ) (hi : ρ n < i) : StrictMono (extend ρ n i) := by
  intro j k hjk
  by_cases hk : k ≤ n
  · rw [extend_of_le hk, extend_of_le (Nat.le_trans (Nat.le_of_lt hjk) hk)]
    exact hρ hjk
  · have hextend : extend ρ n i k = i + (k - n - 1) := if_neg hk
    by_cases hj : j ≤ n
    · have hle : ρ j ≤ ρ n := hρ.monotone hj
      rw [extend_of_le hj, hextend]
      omega
    · rw [hextend, extend, if_neg hj]
      omega

end Extend

theorem Entry.rename_extend {e : Entry} {n i : Nat} (he : e.index ≤ n) :
    e.rename (extend ρ n i) = e.rename ρ := by
  rw [rename, extend_of_le he, rename]

/-! ## Mirrors -/

open Keys Etcd

/-- A server has what a store in memory has, with other indexes, and directories above it. -/
structure Mirrors (R : Set String) (ρ : Nat → Nat) (m : Memory) (t : Tree) : Prop where
  mono : StrictMono ρ
  index : ρ m.index ≤ t.index
  bounded : m.Bounded
  keys : ∀ key e, m.get? key = some e → key ∈ R
  stored : ∀ key e, t.find key = some (.record e) ↔ (m.get? key).map (Entry.rename ρ) = some e
  above : ∀ dir key e, m.get? key = some e → Below dir key → t.find dir = some .directory
  free : ∀ key ∈ R, t.find key ≠ some .directory

theorem mem_records {l : List (String × Content)} {e : Entry} :
    (key, e) ∈ records l ↔ (key, .record e) ∈ l := by
  rw [records, List.mem_filterMap]
  constructor
  · rintro ⟨⟨k, c⟩, hmem, hc⟩
    obtain ⟨rfl, rfl⟩ := record?_eq_some_iff.mp hc
    exact hmem
  · intro hmem
    exact ⟨_, hmem, rfl⟩

theorem ascending_records {l : List (String × Content)} (hl : Ascending l) :
    Ascending (records l) := by
  refine hl.filterMap _ fun ⟨j, c⟩ ⟨k, d⟩ hlt e he f hf => ?_
  obtain ⟨rfl, -⟩ := record?_eq_some_iff.mp he
  obtain ⟨rfl, -⟩ := record?_eq_some_iff.mp hf
  exact hlt

namespace Mirrors

variable {m : Memory} {t : Tree} {e : Entry} {value : String} {i : Nat}

theorem empty (R : Set String) (hempty : ∀ key, t.find key = none) :
    Mirrors R (t.index + ·) Memory.empty t where
  mono := fun _ _ h => Nat.add_lt_add_left h _
  index := Nat.le_refl _
  bounded := Memory.bounded_empty
  keys := by
    intro key e he
    cases he
  stored := by
    intro key e
    rw [hempty]
    simp [Memory.get?, Memory.empty]
  above := by
    intro dir key e he
    cases he
  free := by
    intro key _
    simp [hempty]

variable (h : Mirrors R ρ m t)
include h

theorem find_of_get? (hget : m.get? key = some e) :
    t.find key = some (.record (e.rename ρ)) :=
  (h.stored key _).mpr (by rw [hget]; rfl)

theorem get?_of_find (hfind : t.find key = some (.record e)) :
    ∃ e', m.get? key = some e' ∧ e = e'.rename ρ := by
  obtain ⟨e', hget, rfl⟩ := Option.map_eq_some_iff.mp ((h.stored key e).mp hfind)
  exact ⟨e', hget, rfl⟩

theorem get?_of_missing (hfind : t.find key = none) : m.get? key = none := by
  cases hget : m.get? key with
  | none => rfl
  | some e =>
    rw [h.find_of_get? hget] at hfind
    cases hfind

theorem bounded_tree : Etcd.Bounded t := by
  intro key e hfind
  obtain ⟨e', hget, rfl⟩ := h.get?_of_find hfind
  exact Nat.le_trans (h.mono.monotone (h.bounded key e' hget)) h.index

/-! ### Changes -/

theorem write (hR : Apart R) (hkey : key ∈ R) (hi : t.index < i) :
    Mirrors R (extend ρ m.index i) (m.write key value) (t.write key value i) where
  mono := strictMono_extend h.mono (Nat.lt_of_le_of_lt h.index hi)
  index := Nat.le_of_eq extend_succ
  bounded := h.bounded.step (.set key value)
  keys := by
    intro j e he
    rw [Memory.get?_write] at he
    split at he
    next hj => exact hj ▸ hkey
    next => exact h.keys j e he
  stored := by
    intro j e
    rw [Memory.get?_write, Tree.find_write]
    split_ifs with hj hbelow
    · simp [Entry.rename, extend_succ]
    · -- a directory above the key that is written is no key of a record
      cases hget : m.get? j with
      | none => simp
      | some d => exact absurd hbelow (hR.apart j (h.keys j d hget) key hkey)
    · rw [h.stored]
      cases hget : m.get? j with
      | none => rfl
      | some d =>
        rw [Option.map_some, Option.map_some, Entry.rename_extend (h.bounded j d hget)]
  above := by
    intro dir j e he hbelow
    have hj : j ∈ R := by
      rw [Memory.get?_write] at he
      split at he
      next hj => exact hj ▸ hkey
      next => exact h.keys j e he
    have hdir : dir ≠ key := by
      rintro rfl
      exact hR.apart dir hkey j hj hbelow
    rw [Memory.get?_write] at he
    rw [Tree.find_write, if_neg hdir]
    split_ifs with habove
    · rfl
    · split at he
      next hj => exact absurd (hj ▸ hbelow) habove
      next => exact h.above dir j e he hbelow
  free := by
    intro j hj
    rw [Tree.find_write]
    split_ifs with hjkey hbelow
    · simp
    · exact absurd hbelow (hR.apart j hj key hkey)
    · exact h.free j hj

theorem erase (hR : Apart R) (hkey : key ∈ R) (hi : t.index ≤ i) :
    Mirrors R ρ (m.erase key) (t.erase key i) where
  mono := h.mono
  index := Nat.le_trans h.index hi
  bounded := h.bounded.step (.delete key)
  keys := by
    intro j e he
    rw [Memory.get?_erase] at he
    split at he
    next => cases he
    next => exact h.keys j e he
  stored := by
    intro j e
    rw [Memory.get?_erase, Tree.find_erase]
    split_ifs
    · simp
    · exact h.stored j e
  above := by
    intro dir j e he hbelow
    rw [Memory.get?_erase] at he
    split at he
    next => cases he
    next =>
      have hdir : dir ≠ key := by
        rintro rfl
        exact hR.apart dir hkey j (h.keys j e he) hbelow
      rw [Tree.find_erase, if_neg hdir]
      exact h.above dir j e he hbelow
  free := by
    intro j hj
    rw [Tree.find_erase]
    split_ifs
    · simp
    · exact h.free j hj

/-! ### Calls -/

/-- No key of a record is below another one on the server, and none is a directory there. -/
theorem admits (hR : Apart R) (hc : c.Fits R) : t.Admits c := by
  have hrecord : ∀ key ∈ R, t.find key ≠ some .directory ∧
      ∀ dir e, Below dir key → t.find dir ≠ some (.record e) := by
    intro key hkey
    refine ⟨h.free key hkey, fun dir e hbelow hfind => ?_⟩
    obtain ⟨e', hget, -⟩ := h.get?_of_find hfind
    exact hR.apart dir (h.keys dir e' hget) key hkey hbelow
  cases c with
  | list dir =>
    intro e hfind
    obtain ⟨e', hget, -⟩ := h.get?_of_find hfind
    exact hc.2 (h.keys dir e' hget)
  | _ => exact hrecord _ hc

theorem records_lists (hR : Apart R) (hdir : IsKey dir) {l : List (String × Content)}
    (hl : t.Lists dir l) :
    records l = (m.children dir).map fun e => (e.1, e.2.rename ρ) := by
  apply Ascending.eq_of_mem_iff
  · exact ascending_records hl.ascending
  · exact List.pairwise_map.mpr (m.ascending_children dir)
  · intro k e
    rw [mem_records, hl.mem_iff, h.stored]
    constructor
    · rintro ⟨hget, name, rfl, -, hslash, -⟩
      obtain ⟨e', hentry, rfl⟩ := Option.map_eq_some_iff.mp hget
      refine List.mem_map.mpr ⟨(dir ++ "/" ++ name, e'), Memory.mem_children.mpr ?_, rfl⟩
      exact ⟨name, by rw [below_isKey hdir], hslash, hentry⟩
    · intro hmem
      obtain ⟨⟨k', e'⟩, hchild, heq⟩ := List.mem_map.mp hmem
      obtain ⟨rfl, rfl⟩ := Prod.mk.inj heq
      obtain ⟨name, rfl, hslash, hget⟩ := Memory.mem_children.mp hchild
      rw [below_isKey hdir] at hget ⊢
      obtain ⟨hname, hhidden⟩ := (hR.keys _ (h.keys _ _ hget)).name_of_append hslash
      exact ⟨by rw [hget]; rfl, name, rfl, hname.nonempty, hslash, hhidden⟩

theorem children_of_none (hdir : IsKey dir) (hfind : t.find dir = none) : m.children dir = [] := by
  refine List.eq_nil_iff_forall_not_mem.mpr fun ⟨k, e⟩ hmem => ?_
  obtain ⟨name, rfl, -, hget⟩ := Memory.mem_children.mp hmem
  rw [below_isKey hdir] at hget
  have hbelow : Below dir (dir ++ "/" ++ name) := ⟨name.toList, String.toList_append.symm⟩
  rw [h.above dir _ e hget hbelow] at hfind
  cases hfind

omit h

/-- What a call came to here and there is the same and leaves mirrors, and the indexes that were
there already have kept their names. -/
def Follow (R : Set String) (ρ : Nat → Nat) (m : Memory) (here : Reply × Memory)
    (there : Reply × Tree) : Prop :=
  ∃ ρ', Mirrors R ρ' here.2 there.2 ∧ (∀ i ≤ m.index, ρ' i = ρ i) ∧ there.1 = here.1.rename ρ'

include h

theorem follow_same (reply : Reply) : Follow R ρ m (reply, m) (reply.rename ρ, t) :=
  ⟨ρ, h, fun _ _ => rfl, rfl⟩

theorem follow_write (hR : Apart R) (hkey : key ∈ R) (hi : t.index < i) :
    Follow R ρ m (.written (m.index + 1), m.write key value)
      (.written i, t.write key value i) :=
  ⟨extend ρ m.index i, h.write hR hkey hi, fun _ => extend_of_le, by rw [Reply.rename, extend_succ]⟩

theorem follow_erase (hR : Apart R) (hkey : key ∈ R) (hi : t.index ≤ i) :
    Follow R ρ m (.deleted true, m.erase key) (.deleted true, t.erase key i) :=
  ⟨ρ, h.erase hR hkey hi, fun _ _ => rfl, rfl⟩

/-- One call leaves mirrors and comes to the same. -/
theorem step (hR : Apart R) (hc : c.Fits R) {a : Keys.Answer} {t' : Tree}
    (htakes : Takes t (c.rename ρ) a t') :
    Follow R ρ m (Reply.of c (m.step c).1, (m.step c).2)
      (Reply.of (c.rename ρ) (made (c.rename ρ) a), t') := by
  cases c with
  | get key =>
    cases htakes with
    | found hfind =>
      obtain ⟨e, hget, rfl⟩ := h.get?_of_find hfind
      rw [Memory.step, hget]
      exact h.follow_same (.found (some e))
    | missing hfind =>
      rw [Memory.step, h.get?_of_missing hfind]
      exact h.follow_same (.found none)
  | list dir =>
    rw [Memory.step]
    cases htakes with
    | @listed _ l hfind hl =>
      have hsame := h.follow_same (.listed (m.children dir))
      rw [Reply.rename, ← h.records_lists hR hc.1 hl] at hsame
      exact hsame
    | unlisted hfind =>
      rw [h.children_of_none hc.1 hfind]
      exact h.follow_same (.listed [])
  | set key value =>
    cases htakes with
    | set hi => exact h.follow_write hR hc hi
  | create key value =>
    cases htakes with
    | created hfind hi =>
      rw [Memory.step_create_of_none (h.get?_of_missing hfind)]
      exact h.follow_write hR hc hi
    | existing hfind =>
      obtain ⟨e, hget, rfl⟩ := h.get?_of_find hfind
      rw [Memory.step_create_of_some hget]
      exact h.follow_same (.failed (.conflict key))
  | compareAndSet key value index =>
    obtain ⟨place, hplace⟩ : ∃ place, ρ index = place := ⟨_, rfl⟩
    rw [Call.rename, hplace] at htakes ⊢
    cases htakes with
    | swapped hfind hi =>
      obtain ⟨e, hget, rfl⟩ := h.get?_of_find hfind
      have hindex : index = e.index := h.mono.injective hplace
      rw [Memory.step, if_pos (by rw [hget, hindex]; rfl)]
      exact h.follow_write hR hc hi
    | stale hfind hne =>
      obtain ⟨e, hget, rfl⟩ := h.get?_of_find hfind
      have hindex : e.index ≠ index := by
        rintro rfl
        exact hne hplace
      rw [Memory.step, if_neg (by simpa [hget] using hindex)]
      exact h.follow_same (.failed (.conflict key))
    | gone hfind =>
      rw [Memory.step, if_neg (by simp [h.get?_of_missing hfind])]
      exact h.follow_same (.failed (.conflict key))
  | delete key =>
    rw [Memory.step_delete]
    cases htakes with
    | deleted hfind hi =>
      obtain ⟨e, hget, rfl⟩ := h.get?_of_find hfind
      rw [hget]
      exact h.follow_erase hR hc hi
    | undeleted hfind =>
      rw [h.get?_of_missing hfind, Memory.erase_of_get?_eq_none (h.get?_of_missing hfind)]
      exact h.follow_same (.deleted false)

end Mirrors

end HostAgent.Store
