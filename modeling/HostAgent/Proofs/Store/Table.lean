import HostAgent.Proofs.Store.Listing
import HostAgent.Proofs.Store.Space
import HostAgent.Proofs.Task.Run

namespace HostAgent

/-!
# Tables of records

A store in memory keeps a table of records if each of them stands as a text under the key that
belongs to it. Readings and listings then give what the table has.
-/

/-- The entries of a map whose keys have no slash. -/
def SortedMap.direct {β : Type} (t : SortedMap β) : SortedMap β where
  entries := t.entries.filter fun e => !e.1.toList.contains '/'
  sorted := t.sorted.filter _

theorem SortedMap.mem_direct {β : Type} {t : SortedMap β} {k : String} {v : β} :
    (k, v) ∈ t.direct.entries ↔ t.get? k = some v ∧ '/' ∉ k.toList := by
  rw [direct, List.mem_filter, get?_eq_some_iff]
  simp

namespace Store

def Memory.Stores {α : Type} [Record α] (m : Memory) (key : String → String) (t : SortedMap α) :
    Prop :=
  ∀ u, (m.get? (key u)).map Entry.value = (t.get? u).map Record.text

namespace Memory.Stores

variable {α : Type} [Record α] {m : Memory} {key : String → String} {t : SortedMap α} {k : String}

theorem write (h : m.Stores key t) (hkey : Function.Injective key) (u : String) (a : α) :
    (m.write (key u) (Record.text a)).Stores key (t.insert u a) := by
  intro j
  rw [get?_write, SortedMap.get?_insert]
  by_cases hj : j = u
  · rw [if_pos (congrArg key hj), if_pos hj]
    rfl
  · rw [if_neg (hkey.ne hj), if_neg hj]
    exact h j

theorem erase (h : m.Stores key t) (hkey : Function.Injective key) (u : String) :
    (m.erase (key u)).Stores key (t.erase u) := by
  intro j
  rw [get?_erase, SortedMap.get?_erase]
  by_cases hj : j = u
  · rw [if_pos (congrArg key hj), if_pos hj]
    rfl
  · rw [if_neg (hkey.ne hj), if_neg hj]
    exact h j

theorem write_of_ne (h : m.Stores key t) (hk : ∀ u, key u ≠ k) (text : String) :
    (m.write k text).Stores key t := by
  intro j
  rw [get?_write, if_neg (hk j)]
  exact h j

theorem erase_of_ne (h : m.Stores key t) (hk : ∀ u, key u ≠ k) : (m.erase k).Stores key t := by
  intro j
  rw [get?_erase, if_neg (hk j)]
  exact h j

theorem texts_children {dir : String} (h : m.Stores (below dir ++ ·) t) :
    (m.children dir).map (fun e => (e.1, e.2.value)) =
      t.direct.entries.map fun e => (below dir ++ e.1, Record.text e.2) := by
  apply Ascending.eq_of_mem_iff
  · exact List.pairwise_map.mpr (m.ascending_children dir)
  · refine List.pairwise_map.mpr (t.direct.sorted.imp fun {a b} hlt => ?_)
    rw [String.lt_iff, String.toList_append, String.toList_append]
    exact List.append_left_lt (String.lt_iff.mp hlt)
  · intro k text
    rw [List.mem_map, List.mem_map]
    constructor
    · rintro ⟨⟨k, e⟩, he, heq⟩
      cases heq
      obtain ⟨u, rfl, hslash, hget⟩ := mem_children.mp he
      obtain ⟨a, ha, htext⟩ := Option.map_eq_some_iff.mp
        ((h u).symm.trans (congrArg (Option.map Entry.value) hget))
      refine ⟨(u, a), SortedMap.mem_direct.mpr ⟨ha, hslash⟩, ?_⟩
      rw [htext]
    · rintro ⟨⟨u, a⟩, hmem, heq⟩
      cases heq
      obtain ⟨ha, hslash⟩ := SortedMap.mem_direct.mp hmem
      obtain ⟨e, he, htext⟩ := Option.map_eq_some_iff.mp
        ((h u).trans (congrArg (Option.map Record.text) ha))
      refine ⟨(_, e), mem_children.mpr ⟨u, rfl, hslash, he⟩, ?_⟩
      rw [htext]

end Memory.Stores

/-! ## Reading -/

section Reading

variable {α : Type} [Record α] [LawfulRecord α]

theorem Space.decode_of_map {o : Option Entry} {x : Option α} {e : Entry}
    (h : o.map Entry.value = x.map Record.text) (he : o = some e) :
    ∃ a, x = some a ∧ decode e.value = .ok a := by
  rw [he, Option.map_some] at h
  obtain ⟨a, ha, htext⟩ := Option.map_eq_some_iff.mp h.symm
  exact ⟨a, ha, by rw [← htext, decode_text]⟩

theorem Space.found_of_map {o : Option Entry} {x : Option α}
    (h : o.map Entry.value = x.map Record.text) : found (.ok o) = .ok x := by
  cases o with
  | none =>
    rw [Option.map_eq_none_iff.mp h.symm]
    rfl
  | some e =>
    obtain ⟨a, rfl, hdecode⟩ := decode_of_map h rfl
    rw [found, fetched, hdecode]
    rfl

theorem Space.mapM_decode {l : List (String × Entry)} {l' : List α}
    (h : l.map (fun e => e.2.value) = l'.map Record.text) :
    (l.mapM fun e => decode e.2.value) = .ok l' := by
  induction l generalizing l' with
  | nil =>
    rw [List.map_eq_nil_iff.mp h.symm]
    rfl
  | cons e l ih =>
    obtain ⟨a, r, rfl, ha, hr⟩ := List.map_eq_cons_iff.mp h.symm
    change Record.text a = e.2.value at ha
    rw [List.mapM_cons, ← ha, decode_text, ih hr.symm]
    rfl

/-- A listing gives the records directly below its directory. -/
theorem Memory.Stores.fetchedAll_children {m : Memory} {dir : String} {t : SortedMap α}
    (h : m.Stores (below dir ++ ·) t) :
    Space.fetchedAll (.ok (m.children dir)) = .ok t.direct.values := by
  apply Space.mapM_decode
  have htexts := congrArg (List.map Prod.snd) h.texts_children
  rw [List.map_map, List.map_map] at htexts
  rw [SortedMap.values, List.map_map]
  exact htexts

end Reading

/-! ## Calls in memory -/

namespace Space

variable {α : Type} [Record α]

theorem run_fetch_map (key : String) (m : Memory) :
    (do return (← fetch (α := α) key).map Prod.fst : Op (Option α)).run.run Memory.step m =
      (found (.ok (m.get? key)), m) := by
  rw [fetch_map_run]
  rfl

theorem run_fetchAll (dir : String) (m : Memory) :
    (fetchAll (α := α) dir).run.run Memory.step m = (fetchedAll (.ok (m.children dir)), m) := by
  rw [fetchAll_run]
  rfl

theorem run_put (key : String) (a : α) (m : Memory) :
    (put key a).run.run Memory.step m = (.ok (), m.write key (Record.text a)) := by
  rw [put_run]
  rfl

theorem run_createVolume (s : Space) (v : Volume) (m : Memory) :
    (s.createVolume v).run.run Memory.step m =
      match m.get? (s.volumeKey v.name) with
      | none => (.ok (), m.write (s.volumeKey v.name) (Record.text v))
      | some _ => (.error (.conflict (s.volumeKey v.name)), m) := by
  rw [createVolume_run]
  refine (Task.run_ask_done (I := interface) Memory.step
    (.create (s.volumeKey v.name) (Record.text v)) dropIndex m).trans ?_
  cases h : m.get? (s.volumeKey v.name) with
  | none =>
    rw [Memory.step_create_of_none h]
    rfl
  | some e =>
    rw [Memory.step_create_of_some h]
    rfl

end Space

end Store

end HostAgent