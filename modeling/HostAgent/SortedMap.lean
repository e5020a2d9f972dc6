namespace HostAgent

/-!
# Sorted maps

Finite maps from text, kept as a list of entries with strictly ascending keys. Text is ordered by
code points, which is also the order of its octets. Two maps with the same look-ups are equal.
-/

def Ascending {β : Type} (l : List (String × β)) : Prop :=
  l.Pairwise fun a b => a.1 < b.1

instance {β : Type} (l : List (String × β)) : Decidable (Ascending l) :=
  inferInstanceAs (Decidable (l.Pairwise _))

namespace Entries

variable {β γ : Type}

/-- Writes one entry, in the place of an entry of the same key if there is one. -/
def insert (k : String) (v : β) : List (String × β) → List (String × β)
  | [] => [(k, v)]
  | (k', v') :: r =>
    if k < k' then (k, v) :: (k', v') :: r
    else if k = k' then (k, v) :: r
    else (k', v') :: insert k v r

def erase (k : String) (l : List (String × β)) : List (String × β) :=
  l.filter fun e => e.1 != k

def get? (k : String) : List (String × β) → Option β
  | [] => none
  | (k', v) :: r => if k = k' then some v else get? k r

@[simp] theorem get?_nil (k : String) : get? k ([] : List (String × β)) = none := rfl

theorem get?_cons (k k' : String) (v : β) (r : List (String × β)) :
    get? k ((k', v) :: r) = if k = k' then some v else get? k r := rfl

theorem get?_insert (k j : String) (v : β) (l : List (String × β)) :
    get? j (insert k v l) = if j = k then some v else get? j l := by
  induction l with
  | nil => simp [insert, get?]
  | cons e r ih =>
    obtain ⟨k', v'⟩ := e
    simp only [insert]
    split
    · simp [get?_cons]
    · split
      · subst k'
        simp only [get?_cons]
        split <;> rfl
      · simp only [get?_cons, ih]
        grind

theorem get?_erase (k j : String) (l : List (String × β)) :
    get? j (erase k l) = if j = k then none else get? j l := by
  induction l with
  | nil => simp [erase]
  | cons e r ih =>
    obtain ⟨k', v'⟩ := e
    by_cases h : k' = k
    · subst h
      have : erase k' ((k', v') :: r) = erase k' r := by simp [erase]
      rw [this, ih, get?_cons]
      split <;> rfl
    · have : erase k ((k', v') :: r) = (k', v') :: erase k r := by simp [erase, h]
      rw [this, get?_cons, get?_cons, ih]
      split <;> simp_all

theorem mem_insert {k : String} {v : β} {l : List (String × β)} {e : String × β}
    (h : e ∈ insert k v l) : e = (k, v) ∨ e ∈ l := by
  induction l with
  | nil => simpa [insert] using h
  | cons d r ih =>
    obtain ⟨k', v'⟩ := d
    simp only [insert] at h
    split at h
    · simpa using h
    · split at h
      · rcases List.mem_cons.1 h with h | h
        · exact .inl h
        · exact .inr (List.mem_cons_of_mem _ h)
      · rcases List.mem_cons.1 h with h | h
        · exact .inr (h ▸ List.mem_cons_self)
        · rcases ih h with h | h
          · exact .inl h
          · exact .inr (List.mem_cons_of_mem _ h)

/-- Of two different texts that do not ascend, the second comes first. -/
theorem lt_of_ne_of_not_lt {a b : String} (h : a ≠ b) (h' : ¬ a < b) : b < a :=
  Decidable.byContradiction fun g => h (String.le_antisymm (String.not_lt.1 g) (String.not_lt.1 h'))

theorem ascending_insert (k : String) (v : β) {l : List (String × β)} (h : Ascending l) :
    Ascending (insert k v l) := by
  induction l with
  | nil => simp [insert, Ascending]
  | cons e r ih =>
    obtain ⟨k', v'⟩ := e
    have hr : Ascending r := (List.pairwise_cons.1 h).2
    have hk : ∀ e ∈ r, k' < e.1 := (List.pairwise_cons.1 h).1
    simp only [insert]
    split
    next hlt =>
      refine List.pairwise_cons.2 ⟨?_, h⟩
      intro e he
      rcases List.mem_cons.1 he with rfl | he
      · exact hlt
      · exact String.lt_trans hlt (hk e he)
    next hlt =>
      split
      next heq =>
        subst heq
        exact List.pairwise_cons.2 ⟨hk, hr⟩
      next hne =>
        refine List.pairwise_cons.2 ⟨?_, ih hr⟩
        intro e he
        rcases mem_insert he with rfl | he
        · exact lt_of_ne_of_not_lt hne hlt
        · exact hk e he

theorem ascending_erase (k : String) {l : List (String × β)} (h : Ascending l) :
    Ascending (erase k l) :=
  h.filter _

theorem get?_eq_none_of_forall {k : String} {l : List (String × β)} (h : ∀ e ∈ l, k < e.1) :
    get? k l = none := by
  induction l with
  | nil => rfl
  | cons e r ih =>
    rw [get?_cons, if_neg, ih fun e he => h e (List.mem_cons_of_mem _ he)]
    rintro rfl
    exact String.lt_irrefl _ (h e List.mem_cons_self)

theorem get?_eq_some_iff {k : String} {v : β} {l : List (String × β)} (h : Ascending l) :
    get? k l = some v ↔ (k, v) ∈ l := by
  induction l with
  | nil => simp
  | cons e r ih =>
    obtain ⟨k', v'⟩ := e
    have hr : Ascending r := (List.pairwise_cons.1 h).2
    have hk : ∀ e ∈ r, k' < e.1 := (List.pairwise_cons.1 h).1
    rw [get?_cons]
    split
    next heq =>
      subst heq
      constructor
      · intro hv; simp_all
      · intro hm
        rcases List.mem_cons.1 hm with hm | hm
        · simp_all
        · exact absurd (hk _ hm) (String.lt_irrefl _)
    next hne =>
      rw [ih hr]
      constructor
      · exact List.mem_cons_of_mem _
      · intro hm
        rcases List.mem_cons.1 hm with hm | hm
        · exact absurd (congrArg Prod.fst hm) hne
        · exact hm

/-- Ascending entries are determined by their look-ups. -/
theorem ext_get? {l m : List (String × β)} (hl : Ascending l) (hm : Ascending m)
    (h : ∀ k, get? k l = get? k m) : l = m := by
  induction l generalizing m with
  | nil =>
    cases m with
    | nil => rfl
    | cons e s =>
      obtain ⟨k, v⟩ := e
      simpa [get?_cons] using h k
  | cons d r ih =>
    obtain ⟨k, v⟩ := d
    cases m with
    | nil => simpa [get?_cons] using h k
    | cons e s =>
      obtain ⟨k', v'⟩ := e
      have hrk : ∀ e ∈ r, k < e.1 := (List.pairwise_cons.1 hl).1
      have hsk : ∀ e ∈ s, k' < e.1 := (List.pairwise_cons.1 hm).1
      have hkk : k = k' := by
        by_cases hlt : k < k'
        · have := h k
          rw [get?_cons, if_pos rfl, get?_eq_none_of_forall] at this
          · simp at this
          · intro e he
            rcases List.mem_cons.1 he with rfl | he
            · exact hlt
            · exact String.lt_trans hlt (hsk e he)
        · by_cases hgt : k' < k
          · have := h k'
            rw [get?_eq_none_of_forall, get?_cons, if_pos rfl] at this
            · simp at this
            · intro e he
              rcases List.mem_cons.1 he with rfl | he
              · exact hgt
              · exact String.lt_trans hgt (hrk e he)
          · exact String.le_antisymm (String.not_lt.1 hgt) (String.not_lt.1 hlt)
      subst hkk
      have hv : v = v' := by simpa [get?_cons] using h k
      subst hv
      congr 1
      refine ih (List.pairwise_cons.1 hl).2 (List.pairwise_cons.1 hm).2 fun j => ?_
      by_cases hj : j = k
      · subst hj
        rw [get?_eq_none_of_forall hrk, get?_eq_none_of_forall hsk]
      · simpa [get?_cons, hj] using h j

end Entries

/-- A finite map from text, its keys in order. -/
structure SortedMap (β : Type) where
  entries : List (String × β)
  sorted : Ascending entries
  deriving DecidableEq

namespace SortedMap

variable {β γ : Type}

def empty : SortedMap β := ⟨[], .nil⟩

instance : Inhabited (SortedMap β) := ⟨empty⟩

def insert (m : SortedMap β) (k : String) (v : β) : SortedMap β :=
  ⟨Entries.insert k v m.entries, Entries.ascending_insert k v m.sorted⟩

def erase (m : SortedMap β) (k : String) : SortedMap β :=
  ⟨Entries.erase k m.entries, Entries.ascending_erase k m.sorted⟩

def get? (m : SortedMap β) (k : String) : Option β :=
  Entries.get? k m.entries

def contains (m : SortedMap β) (k : String) : Bool :=
  (m.get? k).isSome

def keys (m : SortedMap β) : List String := m.entries.map Prod.fst

def values (m : SortedMap β) : List β := m.entries.map Prod.snd

/-- Later entries of a key replace earlier ones. -/
def ofList (l : List (String × β)) : SortedMap β :=
  l.foldl (fun m e => m.insert e.1 e.2) empty

@[simp] theorem get?_empty (k : String) : (empty : SortedMap β).get? k = none := rfl

theorem get?_insert (m : SortedMap β) (k j : String) (v : β) :
    (m.insert k v).get? j = if j = k then some v else m.get? j :=
  Entries.get?_insert k j v m.entries

@[simp] theorem get?_insert_self (m : SortedMap β) (k : String) (v : β) :
    (m.insert k v).get? k = some v := by
  simp [get?_insert]

theorem get?_insert_ne (m : SortedMap β) {k j : String} (v : β) (h : j ≠ k) :
    (m.insert k v).get? j = m.get? j := by
  simp [get?_insert, h]

theorem get?_erase (m : SortedMap β) (k j : String) :
    (m.erase k).get? j = if j = k then none else m.get? j :=
  Entries.get?_erase k j m.entries

@[simp] theorem get?_erase_self (m : SortedMap β) (k : String) : (m.erase k).get? k = none := by
  simp [get?_erase]

theorem get?_erase_ne (m : SortedMap β) {k j : String} (h : j ≠ k) :
    (m.erase k).get? j = m.get? j := by
  simp [get?_erase, h]

theorem get?_eq_some_iff {m : SortedMap β} {k : String} {v : β} :
    m.get? k = some v ↔ (k, v) ∈ m.entries :=
  Entries.get?_eq_some_iff m.sorted

@[ext] theorem ext {m n : SortedMap β} (h : ∀ k, m.get? k = n.get? k) : m = n := by
  cases m with
  | mk l hl =>
    cases n with
    | mk s hs =>
      have : l = s := Entries.ext_get? hl hs h
      subst this
      rfl

end SortedMap

end HostAgent
