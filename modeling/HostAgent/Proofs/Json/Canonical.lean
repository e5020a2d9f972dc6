import HostAgent.Proofs.Json.Fields
import HostAgent.Proofs.Json.Text

namespace HostAgent.Json

/-!
# Values in order

The canonical form of a value has the names of every object in order. Members with different names
are found in it under their names, each in its own canonical form, so a record is decoded from the
canonical form of the value that it is encoded as. A value that is in order already stays as it is.
-/

variable {α β : Type}

theorem insert_of_forall_lt {k : String} {v : β} {l : List (String × β)}
    (h : ∀ e ∈ l, e.1 < k) : Entries.insert k v l = l ++ [(k, v)] := by
  induction l with
  | nil => rfl
  | cons e l ih =>
    obtain ⟨i, u⟩ := e
    have hlt : i < k := h (i, u) List.mem_cons_self
    have hne : k ≠ i := by
      rintro rfl
      exact String.lt_irrefl _ hlt
    rw [Entries.insert, if_neg (String.lt_asymm hlt), if_neg hne,
      ih fun e he => h e (List.mem_cons_of_mem _ he), List.cons_append]

/-- The members of an object, each in its canonical form where it stands. -/
def canonicalValues (m : List (String × Json)) : List (String × Json) :=
  m.map fun e => (e.1, canonical e.2)

/-- Members in order are entered behind those that were entered before. -/
theorem canonicalMembers_of_ascending (m acc : List (String × Json))
    (h : Ascending (acc ++ canonicalValues m)) :
    canonicalMembers m acc = acc ++ canonicalValues m := by
  induction m generalizing acc with
  | nil => simp [canonicalMembers, canonicalValues]
  | cons e r ih =>
    obtain ⟨k, j⟩ := e
    have hlt : ∀ e ∈ acc, e.1 < k := fun e he =>
      (List.pairwise_append.mp h).2.2 e he (k, canonical j) List.mem_cons_self
    have hassoc : acc ++ canonicalValues ((k, j) :: r) =
        acc ++ [(k, canonical j)] ++ canonicalValues r := by
      simp [canonicalValues]
    rw [hassoc] at h ⊢
    rw [canonicalMembers, insert_of_forall_lt hlt, ih _ h]

theorem canonical_object_of_ascending {m : List (String × Json)} (h : Ascending m) :
    canonical (.object m) = .object (canonicalValues m) := by
  have hvalues : Ascending (canonicalValues m) := List.pairwise_map.mpr h
  rw [canonical, canonicalMembers_of_ascending m [] hvalues, List.nil_append]

mutual

theorem canonical_of_ordered : (j : Json) → Ordered j → canonical j = j
  | .null, _ | .bool _, _ | .number _, _ | .string _, _ => by simp [canonical]
  | .array l, h => by rw [canonical, canonicalItems_of_ordered l h]
  | .object m, h => by
    rw [canonical_object_of_ascending h.1, canonicalValues_of_ordered m h.2]

theorem canonicalItems_of_ordered : (l : List Json) → OrderedItems l → canonicalItems l = l
  | [], _ => rfl
  | j :: r, h => by
    rw [canonicalItems, canonical_of_ordered j h.1, canonicalItems_of_ordered r h.2]

theorem canonicalValues_of_ordered : (m : List (String × Json)) → OrderedMembers m →
    canonicalValues m = m
  | [], _ => rfl
  | (k, j) :: r, h => by
    have hr := canonicalValues_of_ordered r h.2
    rw [canonicalValues] at hr ⊢
    rw [List.map_cons, canonical_of_ordered j h.1, hr]

end

theorem value_json (v : Value) : Json.value v.json = v := by
  obtain ⟨j, hj⟩ := v
  simp only [Json.value, canonical_of_ordered j hj]

theorem decodes_value (v : Value) : Decodes Decoder.value v.json v := by
  intro c hc
  rw [Decoder.value, anything_ofJson v.json c hc, Except.map, value_json]

mutual

theorem integral_canonical : (j : Json) → Integral j → Integral (canonical j)
  | .null, h | .bool _, h | .number _, h | .string _, h => by simpa [canonical] using h
  | .array l, h => by
    rw [canonical, Integral]
    exact integralItems_canonical l h
  | .object m, h => by
    rw [canonical, Integral]
    exact integralMembers_canonical m [] h trivial

theorem integralItems_canonical : (l : List Json) → IntegralItems l →
    IntegralItems (canonicalItems l)
  | [], _ => trivial
  | j :: r, h => ⟨integral_canonical j h.1, integralItems_canonical r h.2⟩

theorem integralMembers_canonical : (m acc : List (String × Json)) → IntegralMembers m →
    IntegralMembers acc → IntegralMembers (canonicalMembers m acc)
  | [], _, _, hacc => hacc
  | (k, j) :: r, acc, h, hacc => by
    refine integralMembers_canonical r _ h.2 (integralMembers_iff.mpr fun e he => ?_)
    rcases Entries.mem_insert he with rfl | he
    · exact integral_canonical j h.1
    · exact integralMembers_iff.mp hacc e he

end

mutual

/-- Nothing is nested more deeply in order. -/
theorem depth_canonical_le : (j : Json) → depth (canonical j) ≤ depth j
  | .null | .bool _ | .number _ | .string _ => by simp [canonical]
  | .array l => by
    rw [canonical, depth, depth]
    exact Nat.succ_le_succ (depthItems_canonical_le l)
  | .object m => by
    rw [canonical, depth, depth]
    exact Nat.succ_le_succ (depthMembers_canonical_le m [] (Nat.le_refl _) (Nat.zero_le _))

theorem depthItems_canonical_le : (l : List Json) → depthItems (canonicalItems l) ≤ depthItems l
  | [] => Nat.le_refl _
  | j :: r => by
    have hj := depth_canonical_le j
    have hr := depthItems_canonical_le r
    simp only [canonicalItems, depthItems]
    omega

theorem depthMembers_canonical_le {n : Nat} : (m acc : List (String × Json)) →
    depthMembers m ≤ n → depthMembers acc ≤ n → depthMembers (canonicalMembers m acc) ≤ n
  | [], _, _, hacc => hacc
  | (k, j) :: r, acc, h, hacc => by
    have hj := depth_canonical_le j
    simp only [depthMembers] at h
    refine depthMembers_canonical_le r _ (by omega) (depthMembers_le_iff.mpr fun e he => ?_)
    rcases Entries.mem_insert he with rfl | he
    · simp only
      omega
    · exact depthMembers_le_iff.mp hacc e he

end

/-! ## Records from values in order -/

theorem lookup_eq_get? (m : List (String × β)) (k : String) : m.lookup k = Entries.get? k m := by
  induction m with
  | nil => rfl
  | cons e m ih =>
    obtain ⟨i, j⟩ := e
    rw [List.lookup_cons, Entries.get?_cons, ih]
    by_cases h : k = i
    · rw [if_pos h, beq_iff_eq.mpr h]
    · rw [if_neg h, beq_false_of_ne h]

theorem lookup_canonicalMembers {m : List (String × Json)} (hnodup : (m.map Prod.fst).Nodup)
    (acc : List (String × Json)) (k : String) :
    (canonicalMembers m acc).lookup k = ((canonicalValues m).lookup k).or (acc.lookup k) := by
  induction m generalizing acc with
  | nil => rfl
  | cons e r ih =>
    obtain ⟨i, j⟩ := e
    obtain ⟨hi, hr⟩ := List.nodup_cons.mp hnodup
    have hinsert : (Entries.insert i (canonical j) acc).lookup k =
        if k = i then some (canonical j) else acc.lookup k := by
      rw [lookup_eq_get?, Entries.get?_insert, lookup_eq_get?]
    have hvalues : (canonicalValues ((i, j) :: r)).lookup k =
        if k = i then some (canonical j) else (canonicalValues r).lookup k := by
      rw [lookup_eq_get?, lookup_eq_get?]
      rfl
    rw [canonicalMembers, ih hr, hinsert, hvalues]
    by_cases h : k = i
    · have hnone : (canonicalValues r).lookup k = none := by
        rw [canonicalValues, lookup_map, Option.map_eq_none_iff, List.lookup_eq_none_iff]
        intro e he
        rw [h]
        exact bne_iff_ne.mpr fun heq => hi (List.mem_map.mpr ⟨e, he, heq.symm⟩)
      rw [if_pos h, if_pos h, hnone, Option.none_or, Option.some_or]
    · rw [if_neg h, if_neg h]

theorem nodup_of_ascending {l : List (String × β)} (h : Ascending l) : (l.map Prod.fst).Nodup := by
  refine List.pairwise_map.mpr (h.imp ?_)
  rintro a b hlt heq
  exact String.lt_irrefl _ (heq ▸ hlt)

variable {m : List (String × Json)} {a : α} {b : β}

theorem agree_canonicalMembers (declared : List Field) (hnodup : (m.map Prod.fst).Nodup) :
    Agree declared (canonicalValues m) (canonicalMembers m []) := by
  intro x _
  rw [lookup_canonicalMembers hnodup, List.lookup_nil, Option.or_none]

theorem nodup_canonicalMembers (m : List (String × Json)) :
    ((canonicalMembers m []).map Prod.fst).Nodup :=
  nodup_of_ascending (ordered_canonicalMembers m [] .nil (by simp [OrderedMembers])).1

theorem decodes_canonical_record {f : Fields α} (title : String)
    (h : f.Reads (canonicalValues m) a) (hnodup : (m.map Prod.fst).Nodup) :
    Decodes (record title f) (canonical (.object m)) a := by
  rw [canonical]
  exact decodes_object title (h.congr (agree_canonicalMembers _ hnodup)) (nodup_canonicalMembers m)

theorem decodes_canonical_flattened {own : Fields α} {rest : Fields β} (title : String)
    (hown : own.Reads (canonicalValues m) a) (hrest : rest.Reads (canonicalValues m) b)
    (hnodup : (m.map Prod.fst).Nodup)
    (hdisjoint : ∀ x ∈ rest.declared, x.name ∉ own.declared.map Field.name) :
    Decodes (flattened title own rest) (canonical (.object m)) (a, b) := by
  rw [canonical]
  exact decodes_flattened title (hown.congr (agree_canonicalMembers _ hnodup))
    (hrest.congr (agree_canonicalMembers _ hnodup)) (nodup_canonicalMembers m) hdisjoint

end HostAgent.Json
