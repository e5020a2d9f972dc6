import HostAgent.Text.Blank
import HostAgent.Text.Split
import Mathlib.Data.List.TakeDrop
import Mathlib.Data.List.TakeWhile

namespace HostAgent.Text

/-!
# Cutting texts

Where a text is cut, if the place to cut it is known: nowhere, or after what holds no place to cut.
-/

section Cut

variable {α : Type} {p : α → Bool} {s r : List α} {a : α}

theorem splitWhere_eq_splitOnP (p : α → Bool) (s : List α) : splitWhere p s = s.splitOnP p := by
  induction s with
  | nil => rfl
  | cons a s ih =>
    rw [splitWhere, List.splitOnP_cons_eq_if_modifyHead, ih]
    cases hs : s.splitOnP p with
    | nil => exact absurd hs (List.splitOnP_ne_nil p s)
    | cons w ws => rfl

theorem splitWhere_of_forall (h : ∀ a ∈ s, p a = false) : splitWhere p s = [s] := by
  rw [splitWhere_eq_splitOnP]
  exact List.splitOnP_eq_singleton h

theorem splitWhere_append (hs : ∀ b ∈ s, p b = false) (ha : p a = true) :
    splitWhere p (s ++ a :: r) = s :: splitWhere p r := by
  simp only [splitWhere_eq_splitOnP]
  exact List.splitOnP_append_cons_of_forall_mem hs a ha r

/-- A list is cut on either side of a place to cut it. -/
theorem splitWhere_append_cons (ha : p a = true) :
    splitWhere p (s ++ a :: r) = splitWhere p s ++ splitWhere p r := by
  simp only [splitWhere_eq_splitOnP]
  exact List.splitOnP_append_cons s r ha

theorem prefix_of_splitWhere {w : List α} {ws : List (List α)} (h : splitWhere p s = w :: ws) :
    w <+: s := by
  induction s generalizing w ws with
  | nil =>
    cases h
    exact List.nil_prefix
  | cons b s ih =>
    rw [splitWhere] at h
    split at h
    · cases h
      exact List.nil_prefix
    · cases hs : splitWhere p s with
      | nil => exact absurd hs (splitWhere_ne_nil p s)
      | cons v vs =>
        rw [hs] at h
        cases h
        exact List.cons_prefix_cons.mpr ⟨rfl, ih hs⟩

/-- The parts stand in the list that was cut. -/
theorem infix_of_mem_splitWhere {w : List α} (h : w ∈ splitWhere p s) : w <:+: s := by
  induction s with
  | nil =>
    obtain rfl := List.mem_singleton.mp h
    exact List.nil_infix
  | cons b s ih =>
    rw [splitWhere] at h
    split at h
    · rcases List.mem_cons.mp h with rfl | h
      · exact List.nil_infix
      · exact (ih h).trans (List.suffix_cons b s).isInfix
    · cases hs : splitWhere p s with
      | nil => exact absurd hs (splitWhere_ne_nil p s)
      | cons v vs =>
        rw [hs] at h
        rcases List.mem_cons.mp h with rfl | h
        · exact (List.cons_prefix_cons.mpr ⟨rfl, prefix_of_splitWhere hs⟩).isInfix
        · have hmem : w ∈ splitWhere p s := by
            rw [hs]
            exact List.mem_cons_of_mem _ h
          exact (ih hmem).trans (List.suffix_cons b s).isInfix

/-- No part has a place to cut it left. -/
theorem eq_false_of_mem_splitWhere {w : List α} (h : w ∈ splitWhere p s) (ha : a ∈ w) :
    p a = false := by
  induction s generalizing w with
  | nil =>
    obtain rfl := List.mem_singleton.mp h
    cases ha
  | cons b s ih =>
    rw [splitWhere] at h
    split at h
    · rcases List.mem_cons.mp h with rfl | h
      · cases ha
      · exact ih h ha
    next hb =>
      cases hs : splitWhere p s with
      | nil => exact absurd hs (splitWhere_ne_nil p s)
      | cons v vs =>
        rw [hs] at h ih
        rcases List.mem_cons.mp h with rfl | h
        · rcases List.mem_cons.mp ha with rfl | ha
          · exact Bool.eq_false_iff.mpr hb
          · exact ih List.mem_cons_self ha
        · exact ih (List.mem_cons_of_mem v h) ha

theorem span_of_forall (h : ∀ a ∈ s, p a = true) :
    s.span p = (s, []) := by
  rw [List.span_eq_takeWhile_dropWhile]
  simp only [List.takeWhile_eq_self_iff.mpr h, List.dropWhile_eq_nil_iff.mpr h]

theorem span_append_cons
    (h : ∀ a ∈ s, p a = true) (ha : p a = false) : (s ++ a :: r).span p = (s, a :: r) := by
  rw [List.span_eq_takeWhile_dropWhile, List.takeWhile_append_of_pos h,
    List.dropWhile_append_of_pos h, List.takeWhile_cons, List.dropWhile_cons, ha]
  simp

end Cut

/-! ## Texts between marks -/

section Marks

variable {c : Char} {s t : String}

theorem splitAt_ne_nil (c : Char) (s : String) : splitAt c s ≠ [] := by
  rw [splitAt, Ne, List.map_eq_nil_iff]
  exact splitWhere_ne_nil _ _

/-- The parts, with the mark between them, are the text that was cut. -/
theorem intercalate_splitAt (c : Char) (s : String) :
    (String.singleton c).intercalate (splitAt c s) = s := by
  rw [← String.toList_inj, String.toList_intercalate, splitAt, List.map_map,
    splitWhere_eq_splitOnP]
  have hid : String.toList ∘ String.ofList = id := by
    funext l
    exact String.toList_ofList
  rw [hid, List.map_id, String.toList_singleton]
  exact List.intercalate_splitOn c

theorem not_mem_of_mem_splitAt (h : t ∈ splitAt c s) : c ∉ t.toList := by
  obtain ⟨w, hw, rfl⟩ := List.mem_map.mp h
  rw [String.toList_ofList]
  intro hc
  simpa using eq_false_of_mem_splitWhere hw hc

theorem splitAt_append (c : Char) (s t : String) :
    splitAt c (s ++ String.singleton c ++ t) = splitAt c s ++ splitAt c t := by
  have hlist : (s ++ String.singleton c ++ t).toList = s.toList ++ c :: t.toList := by simp
  rw [splitAt, hlist, splitWhere_append_cons (by simp), List.map_append]
  rfl

end Marks

/-! ## What is cut off at the ends -/

theorem trimWhile_eq_self {p : Char → Bool} {s : List Char}
    (hfirst : ∀ c, s.head? = some c → p c = false)
    (hlast : ∀ c, s.getLast? = some c → p c = false) : trimWhile p s = s := by
  have hdrop : ∀ l : List Char, (∀ c, l.head? = some c → p c = false) → l.dropWhile p = l := by
    intro l hl
    cases l with
    | nil => rfl
    | cons c r => rw [List.dropWhile_cons, if_neg (by simp [hl c rfl])]
  rw [trimWhile, hdrop s hfirst, hdrop, List.reverse_reverse]
  simpa using hlast

/-- What was cut off at both ends does not begin with more of it. -/
theorem head?_trimWhile {p : Char → Bool} {s : List Char} {c : Char}
    (h : (trimWhile p s).head? = some c) : p c = false := by
  have hprefix : trimWhile p s <+: s.dropWhile p := by
    rw [trimWhile, ← List.reverse_suffix, List.reverse_reverse]
    exact List.dropWhile_suffix p
  have hhead := List.head?_dropWhile_not p s
  obtain ⟨r, hr⟩ := List.head?_eq_some_iff.mp h
  obtain ⟨t, ht⟩ := hprefix
  rw [← ht, hr, List.cons_append, List.head?_cons] at hhead
  simpa using hhead

theorem getLast?_trimWhile {p : Char → Bool} {s : List Char} {c : Char}
    (h : (trimWhile p s).getLast? = some c) : p c = false := by
  have hhead := List.head?_dropWhile_not p (s.dropWhile p).reverse
  rw [trimWhile, List.getLast?_reverse] at h
  rw [h] at hhead
  simpa using hhead

theorem trimSlashes_append {s : String} (n : Nat)
    (h : ∀ c, s.toList.getLast? = some c → c ≠ '/') :
    trimSlashes (s ++ String.ofList (List.replicate n '/')) = s := by
  have hslashes : ∀ c ∈ List.replicate n '/', (c == '/') = true := by
    intro c hc
    rw [List.eq_of_mem_replicate hc]
    rfl
  have hrest : s.toList.reverse.dropWhile (· == '/') = s.toList.reverse := by
    cases hs : s.toList.reverse with
    | nil => rfl
    | cons c r =>
      have hlast : s.toList.getLast? = some c := by rw [← List.head?_reverse, hs, List.head?_cons]
      rw [List.dropWhile_cons, if_neg (by simpa using h c hlast)]
  rw [trimSlashes, String.toList_append, String.toList_ofList, List.reverse_append,
    List.reverse_replicate, List.dropWhile_append_of_pos hslashes, hrest, List.reverse_reverse,
    String.ofList_toList]

/-- What was cut off are slashes. -/
theorem exists_trimSlashes (s : String) :
    ∃ n, s = trimSlashes s ++ String.ofList (List.replicate n '/') := by
  have hslashes : ∀ c ∈ s.toList.reverse.takeWhile (· == '/'), c = '/' := by
    intro c hc
    simpa using List.mem_takeWhile_imp hc
  have hlist : s.toList = (s.toList.reverse.dropWhile (· == '/')).reverse ++
      (s.toList.reverse.takeWhile (· == '/')).reverse := by
    rw [← List.reverse_append, List.takeWhile_append_dropWhile, List.reverse_reverse]
  refine ⟨(s.toList.reverse.takeWhile (· == '/')).length, ?_⟩
  rw [← String.toList_inj, String.toList_append, trimSlashes, String.toList_ofList,
    String.toList_ofList, ← List.reverse_replicate, ← List.eq_replicate_of_mem hslashes]
  exact hlist

/-- No slash is left at the end. -/
theorem getLast?_trimSlashes (s : String) : (trimSlashes s).toList.getLast? ≠ some '/' := by
  intro h
  have hhead := List.head?_dropWhile_not (· == '/') s.toList.reverse
  rw [trimSlashes, String.toList_ofList, List.getLast?_reverse] at h
  rw [h] at hhead
  cases hhead

theorem trimSlashes_ne (s u : String) : trimSlashes s ≠ u ++ "/" := by
  intro h
  apply getLast?_trimSlashes s
  rw [h, String.toList_append]
  exact List.getLast?_concat

end HostAgent.Text
