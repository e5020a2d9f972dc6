import HostAgent.SortedMap
import Mathlib.Data.List.Basic

namespace HostAgent.SortedMap

/-!
# Maps built of their own entries, and maps with other values

Entries whose keys already ascend are the entries of the map that is built of them. A map whose
values are changed one by one keeps its keys.
-/

variable {β γ : Type}

theorem get?_foldl_insert {l : List (String × β)} (h : Ascending l) (m : SortedMap β) (k : String) :
    (l.foldl (fun m e => m.insert e.1 e.2) m).get? k = (Entries.get? k l).or (m.get? k) := by
  induction l generalizing m with
  | nil => rfl
  | cons e r ih =>
    obtain ⟨k', v⟩ := e
    have hfirst : ∀ e ∈ r, k' < e.1 := (List.pairwise_cons.mp h).1
    rw [List.foldl_cons, ih (List.pairwise_cons.mp h).2, Entries.get?_cons, get?_insert]
    split
    next heq =>
      subst heq
      rw [Entries.get?_eq_none_of_forall hfirst, Option.none_or, Option.some_or]
    next => rfl

theorem ofList_of_ascending {l : List (String × β)} (h : Ascending l) : ofList l = ⟨l, h⟩ := by
  ext1 k
  rw [ofList, get?_foldl_insert h, get?_empty, Option.or_none]
  rfl

@[simp] theorem ofList_entries (m : SortedMap β) : ofList m.entries = m :=
  ofList_of_ascending m.sorted

theorem get?_foldl_const (v : β) (l : List String) (m : SortedMap β) (k : String) :
    ((l.map fun n => (n, v)).foldl (fun m e => m.insert e.1 e.2) m).get? k =
      if k ∈ l then some v else m.get? k := by
  induction l generalizing m with
  | nil => simp
  | cons n l ih =>
    rw [List.map_cons, List.foldl_cons, ih, get?_insert]
    by_cases hl : k ∈ l
    · simp [hl]
    · by_cases hn : k = n <;> simp [hl, hn]

/-- A map that is built of keys with one value has the value under each of the keys. -/
theorem get?_ofList_const (v : β) (l : List String) (k : String) :
    (ofList (l.map fun n => (n, v))).get? k = if k ∈ l then some v else none :=
  get?_foldl_const v l empty k

theorem get?_eq_none_of_values {m : SortedMap β} (h : m.values = []) (k : String) :
    m.get? k = none := by
  cases hget : m.get? k with
  | none => rfl
  | some v =>
    have hv : v ∈ m.values := List.mem_map_of_mem (get?_eq_some_iff.mp hget)
    rw [h] at hv
    cases hv

theorem get?_map (f : β → γ) (k : String) (l : List (String × β)) :
    Entries.get? k (l.map fun e => (e.1, f e.2)) = (Entries.get? k l).map f := by
  induction l with
  | nil => rfl
  | cons e r ih =>
    obtain ⟨i, v⟩ := e
    rw [List.map_cons, Entries.get?_cons, Entries.get?_cons, ih]
    split <;> rfl

theorem ascending_map (f : β → γ) {l : List (String × β)} (h : Ascending l) :
    Ascending (l.map fun e => (e.1, f e.2)) :=
  List.pairwise_map.mpr h

def mapValues (f : β → γ) (m : SortedMap β) : SortedMap γ :=
  ⟨m.entries.map fun e => (e.1, f e.2), ascending_map f m.sorted⟩

@[simp] theorem get?_mapValues (f : β → γ) (m : SortedMap β) (k : String) :
    (m.mapValues f).get? k = (m.get? k).map f :=
  get?_map f k m.entries

end HostAgent.SortedMap
