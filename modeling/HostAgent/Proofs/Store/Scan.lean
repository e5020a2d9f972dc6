import HostAgent.Proofs.Store.Listing
import HostAgent.Proofs.Text.Cutting
import HostAgent.Proofs.Text.Utf8

namespace HostAgent

/-!
# Scans over octets

A listing is a scan over octets: it begins at the octets that all keys in question begin with, ends
at the first key that begins with others, and looks for a slash in what is left of a key from an
octet on. No key is cut within a character, and what the scan meets is what is directly below the
directory, for all keys that there may be.
-/

/-- The rest of a text from an octet on, if a character begins there or the text ends. -/
def Text.restFrom? (s : String) (octet : Nat) : Option String :=
  if h : String.Pos.Raw.IsValid s ⟨octet⟩ then some (s.sliceFrom (s.pos ⟨octet⟩ h)).copy else none

theorem Text.restFrom?_append (s t : String) : restFrom? (s ++ t) s.utf8ByteSize = some t := by
  have hvalid : String.Pos.Raw.IsValid (s ++ t) ⟨s.utf8ByteSize⟩ :=
    String.Pos.Raw.isValid_iff_exists_append.mpr ⟨s, t, rfl, rfl⟩
  have hsplits : ((s ++ t).pos ⟨s.utf8ByteSize⟩ hvalid).Splits s t := ⟨rfl, rfl⟩
  rw [restFrom?, dif_pos hvalid, (String.Pos.splits _).eq_right hsplits]

example : Text.restFrom? "aé/b" 3 = some "/b" ∧ Text.restFrom? "aé/b" 2 = none := by decide

section Filter

variable {α : Type} {p : α → Option Bool} {q : α → Bool} {l : List α}

theorem filterAuxM_of_forall (h : ∀ a ∈ l, p a = some (q a)) (acc : List α) :
    l.filterAuxM p acc = some ((l.filter q).reverse ++ acc) := by
  induction l generalizing acc with
  | nil => rfl
  | cons a l ih =>
    have ha : p a = some (q a) := h a List.mem_cons_self
    have hl : ∀ b ∈ l, p b = some (q b) := fun b hb => h b (List.mem_cons_of_mem _ hb)
    rw [List.filterAuxM, ha, List.filter_cons]
    change l.filterAuxM p (bif q a then a :: acc else acc) = _
    rw [ih hl]
    cases q a <;> simp

theorem filterM_of_forall (h : ∀ a ∈ l, p a = some (q a)) : l.filterM p = some (l.filter q) := by
  rw [List.filterM, filterAuxM_of_forall h]
  simp

end Filter

namespace Store

/-- A key is a directory without the slashes at its end, then a slash, then a name without one. -/
def IsDirectlyBelow (dir key : String) : Prop :=
  ∃ base slashes name, dir = base ++ String.ofList (List.replicate slashes '/') ∧
    base.toList.getLast? ≠ some '/' ∧ key = base ++ "/" ++ name ∧ '/' ∉ name.toList

namespace Memory

open Text.Utf8 (encode)

variable {dir key : String}

/-- The entries that a scan over octets lists, unless it has to cut a key within a character. -/
def scan? (l : List (String × Entry)) (dir : String) : Option (List (String × Entry)) :=
  let start := below dir
  ((l.dropWhile fun e => encode e.1 < encode start).takeWhile fun e =>
    (encode start).isPrefixOf (encode e.1)).filterM fun e =>
      (Text.restFrom? e.1 start.utf8ByteSize).map fun rest => !rest.toList.contains '/'

theorem isDirectlyBelow_iff :
    IsDirectlyBelow dir key ↔ ∃ name, key = below dir ++ name ∧ '/' ∉ name.toList := by
  constructor
  · rintro ⟨base, slashes, name, rfl, hbase, rfl, hname⟩
    refine ⟨name, ?_, hname⟩
    rw [below, Text.trimSlashes_append slashes]
    rintro c hc rfl
    exact hbase hc
  · rintro ⟨name, rfl, hname⟩
    obtain ⟨slashes, hdir⟩ := Text.exists_trimSlashes dir
    exact ⟨Text.trimSlashes dir, slashes, name, hdir, Text.getLast?_trimSlashes dir, rfl, hname⟩

theorem startsWith_and_isChild_iff :
    startsWith (below dir) key = true ∧ isChild (below dir) key = true ↔
      IsDirectlyBelow dir key := by
  rw [isDirectlyBelow_iff]
  constructor
  · rintro ⟨hstarts, hchild⟩
    obtain ⟨name, rfl⟩ := exists_of_startsWith hstarts
    exact ⟨name, rfl, isChild_append_iff.mp hchild⟩
  · rintro ⟨name, rfl, hname⟩
    exact ⟨startsWith_append _ name, isChild_append_iff.mpr hname⟩

instance (dir key : String) : Decidable (IsDirectlyBelow dir key) :=
  decidable_of_iff _ startsWith_and_isChild_iff

example : IsDirectlyBelow "/p/volumes//" "/p/volumes/é" ∧
    ¬ IsDirectlyBelow "/p/volumes" "/p/volumesx" := by decide

/-- What the scan lists is what a look at every entry would find. -/
theorem children_eq_filter (m : Memory) (dir : String) :
    m.children dir = m.entries.entries.filter fun e => IsDirectlyBelow dir e.1 := by
  rw [children, scan_eq_filter m.entries.sorted, List.filter_filter]
  apply List.filter_congr
  intro e _
  rw [Bool.eq_iff_iff, Bool.and_eq_true, and_comm, startsWith_and_isChild_iff, decide_eq_true_iff]

theorem met_startsWith {start : String} {l : List (String × Entry)} {e : String × Entry}
    (h : e ∈ l.takeWhile fun e => startsWith start e.1) : startsWith start e.1 = true :=
  List.mem_takeWhile_imp (p := fun e : String × Entry => startsWith start e.1) h

/-- The octets of the keys lead the scan as their characters would. -/
theorem scan?_eq (m : Memory) (dir : String) :
    scan? m.entries.entries dir = some (m.children dir) := by
  have hstarts : ∀ key,
      (encode (below dir)).isPrefixOf (encode key) = startsWith (below dir) key := by
    intro key
    rw [Bool.eq_iff_iff, List.isPrefixOf_iff_prefix, Text.Utf8.encode_prefix_iff, startsWith_iff]
  simp only [scan?, Text.Utf8.encode_lt_encode_iff, hstarts, children]
  refine filterM_of_forall fun e he => ?_
  obtain ⟨name, hname⟩ := exists_of_startsWith (met_startsWith he)
  rw [hname, Text.restFrom?_append, isChild_append, Option.map_some]

/-- A listing has exactly what is directly below its directory, as a look at every entry would find
it, each key once, as it is stored now, in the order of the octets. A scan over octets that ends at
the first key which does not begin with the directory comes to the same, and no key that it cuts is
cut within a character. -/
theorem listings_have_direct_entries (m : Memory) (dir : String) :
    m.step (.list dir) = (.ok (m.children dir), m) ∧
    scan? m.entries.entries dir = some (m.children dir) ∧
    m.children dir = (m.entries.entries.filter fun e => IsDirectlyBelow dir e.1) ∧
    (∀ key e, (key, e) ∈ m.children dir ↔ m.get? key = some e ∧ IsDirectlyBelow dir key) ∧
    (m.children dir).Pairwise fun a b => encode a.1 < encode b.1 := by
  refine ⟨rfl, scan?_eq m dir, children_eq_filter m dir, fun key e => ?_, ?_⟩
  · rw [children_eq_filter, List.mem_filter, ← SortedMap.get?_eq_some_iff, decide_eq_true_iff]
    rfl
  · exact (m.ascending_children dir).imp Text.Utf8.encode_lt_encode

end Memory

end Store

end HostAgent
