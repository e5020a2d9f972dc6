import HostAgent.Proofs.Store.Memory
import HostAgent.Store.Space

namespace HostAgent

/-!
# Listings

The keys of hosts, of volumes and of the settings are different from each other, whatever the
identifiers and names are. A listing goes through the keys in order, from the first that could be
below the directory to the first that is not, and so meets all that are directly below it.
-/

theorem Ascending.eq_of_mem_iff {β : Type} {l m : List (String × β)} (hl : Ascending l)
    (hm : Ascending m) (h : ∀ k v, (k, v) ∈ l ↔ (k, v) ∈ m) : l = m := by
  apply Entries.ext_get? hl hm
  intro k
  ext v
  rw [Entries.get?_eq_some_iff hl, Entries.get?_eq_some_iff hm]
  exact h k v

namespace Store

/-! ## Keys in order -/

theorem prefix_of_between {p k t : List Char} (hle : ¬ k < p) (hlt : k < p ++ t) : p <+: k := by
  induction p generalizing k with
  | nil => exact List.nil_prefix
  | cons a p ih =>
    cases k with
    | nil => exact absurd (List.nil_lt_cons a p) hle
    | cons b k =>
      rw [List.cons_lt_cons_iff] at hle
      rw [List.cons_append, List.cons_lt_cons_iff] at hlt
      rcases hlt with hlt | ⟨rfl, hlt⟩
      · exact absurd (.inl hlt) hle
      · have hprefix : p <+: k := ih (fun h => hle (.inr ⟨rfl, h⟩)) hlt
        exact List.cons_prefix_cons.mpr ⟨rfl, hprefix⟩

namespace Memory

variable {p k k' dir : String}

theorem startsWith_iff : startsWith p k = true ↔ p.toList <+: k.toList := by
  rw [startsWith, List.isPrefixOf_iff_prefix]

@[simp] theorem startsWith_append (p u : String) : startsWith p (p ++ u) = true := by
  rw [startsWith_iff, String.toList_append]
  exact List.prefix_append _ _

theorem exists_of_startsWith (h : startsWith p k = true) : ∃ u, k = p ++ u := by
  obtain ⟨t, ht⟩ := startsWith_iff.mp h
  refine ⟨String.ofList t, ?_⟩
  rw [← String.toList_inj, String.toList_append, String.toList_ofList, ht]

theorem not_lt_of_startsWith (h : startsWith p k = true) : ¬ k < p := by
  obtain ⟨t, ht⟩ := startsWith_iff.mp h
  rw [String.lt_iff, ← ht]
  exact List.not_lt.mpr (List.le_append_left)

theorem startsWith_of_between (hle : ¬ k < p) (hlt : k < k') (h : startsWith p k' = true) :
    startsWith p k = true := by
  obtain ⟨t, ht⟩ := startsWith_iff.mp h
  rw [String.lt_iff] at hle hlt
  rw [← ht] at hlt
  exact startsWith_iff.mpr (prefix_of_between hle hlt)

theorem takeWhile_startsWith {l : List (String × Entry)} (hl : Ascending l)
    (hle : ∀ e ∈ l, ¬ e.1 < p) :
    l.takeWhile (fun e => startsWith p e.1) = l.filter fun e => startsWith p e.1 := by
  induction l with
  | nil => rfl
  | cons e l ih =>
    obtain ⟨hfirst, hl⟩ := List.pairwise_cons.mp hl
    by_cases he : startsWith p e.1 = true
    · rw [List.takeWhile_cons, List.filter_cons, if_pos he, if_pos he,
        ih hl fun d hd => hle d (List.mem_cons_of_mem _ hd)]
    · rw [List.takeWhile_cons, List.filter_cons, if_neg he, if_neg he]
      symm
      rw [List.filter_eq_nil_iff]
      intro d hd hstarts
      exact he (startsWith_of_between (hle e List.mem_cons_self) (hfirst d hd) hstarts)

/-- The scan of a listing meets all keys that begin with the text which it looks for. -/
theorem scan_eq_filter {l : List (String × Entry)} (hl : Ascending l) :
    ((l.dropWhile fun e => e.1 < p).takeWhile fun e => startsWith p e.1) =
      l.filter fun e => startsWith p e.1 := by
  induction l with
  | nil => rfl
  | cons e l ih =>
    obtain ⟨hfirst, htail⟩ := List.pairwise_cons.mp hl
    by_cases he : e.1 < p
    · have hnot : ¬ startsWith p e.1 = true := fun h => not_lt_of_startsWith h he
      rw [List.dropWhile_cons, List.filter_cons, if_pos (decide_eq_true he), if_neg hnot,
        ih htail]
    · rw [List.dropWhile_cons, if_neg (by simpa using he)]
      apply takeWhile_startsWith hl
      intro d hd
      rcases List.mem_cons.mp hd with rfl | hd
      · exact he
      · exact fun hlt => he (String.lt_trans (hfirst d hd) hlt)

theorem ascending_children (m : Memory) (dir : String) : Ascending (m.children dir) := by
  rw [children, scan_eq_filter m.entries.sorted]
  exact (m.entries.sorted.filter _).filter _

theorem isChild_append (p u : String) : isChild p (p ++ u) = !u.toList.contains '/' := by
  rw [isChild, String.toList_append, ← String.length_toList, List.drop_left]

theorem isChild_append_iff {u : String} : isChild p (p ++ u) = true ↔ '/' ∉ u.toList := by
  simp [isChild_append]

/-- The entries of a listing are those whose key continues the directory without a slash. -/
theorem mem_children {m : Memory} {e : Entry} :
    (k, e) ∈ m.children dir ↔
      ∃ u, k = below dir ++ u ∧ '/' ∉ u.toList ∧ m.get? k = some e := by
  rw [children, scan_eq_filter m.entries.sorted, List.mem_filter, List.mem_filter,
    ← SortedMap.get?_eq_some_iff]
  constructor
  · rintro ⟨⟨hget, hstarts⟩, hchild⟩
    obtain ⟨u, rfl⟩ := exists_of_startsWith hstarts
    exact ⟨u, rfl, isChild_append_iff.mp hchild, hget⟩
  · rintro ⟨u, rfl, hu, hget⟩
    exact ⟨⟨hget, startsWith_append _ u⟩, isChild_append_iff.mpr hu⟩

end Memory

/-! ## Keys of records -/

namespace Space

variable {s : Space} {u u' : String}

theorem below_append_cons (root : String) {dir : String} {c : Char} {t : List Char}
    (hdir : dir.toList = t ++ [c]) (hc : c ≠ '/') :
    Memory.below (root ++ dir) = root ++ dir ++ "/" := by
  rw [Memory.below, Text.trimSlashes, String.toList_append, hdir, ← List.append_assoc,
    List.reverse_append, List.reverse_singleton, List.singleton_append, List.dropWhile_cons,
    if_neg (by simpa using hc), List.reverse_cons, List.reverse_reverse, List.append_assoc, ← hdir,
    ← String.toList_append, String.ofList_toList]

theorem below_hostsDir (s : Space) : Memory.below s.hostsDir = s.root ++ "/hosts/" := by
  rw [hostsDir, below_append_cons s.root (t := "/host".toList) (c := 's') (by simp) (by decide),
    String.append_assoc]
  rfl

theorem below_volumesDir (s : Space) : Memory.below s.volumesDir = s.root ++ "/volumes/" := by
  rw [volumesDir, below_append_cons s.root (t := "/volume".toList) (c := 's') (by simp) (by decide),
    String.append_assoc]
  rfl

theorem hostKey_injective (s : Space) : Function.Injective s.hostKey :=
  fun _ _ => (String.append_right_inj _).mp

theorem volumeKey_injective (s : Space) : Function.Injective s.volumeKey :=
  fun _ _ => (String.append_right_inj _).mp

theorem append_ne {t t' : String} (root : String) (h : t.toList ≠ t'.toList) :
    root ++ t ≠ root ++ t' := by
  intro heq
  apply h
  rw [(String.append_right_inj root).mp heq]

theorem hostKey_ne_volumeKey : s.hostKey u ≠ s.volumeKey u' := by
  rw [hostKey, volumeKey, String.append_assoc, String.append_assoc]
  apply append_ne
  simp

theorem hostKey_ne_settingsKey : s.hostKey u ≠ s.settingsKey := by
  rw [hostKey, settingsKey, String.append_assoc]
  apply append_ne
  simp

theorem volumeKey_ne_settingsKey : s.volumeKey u ≠ s.settingsKey := by
  rw [volumeKey, settingsKey, String.append_assoc]
  apply append_ne
  simp

end Space

end Store

end HostAgent
