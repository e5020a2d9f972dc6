import HostAgent.Json.Decoder
import HostAgent.Proofs.SortedMap
import Mathlib.Data.List.Forall2

namespace HostAgent.Json

/-!
# Decoding what was encoded

A decoder decodes a value where it takes the document of the value for what it stands for, from a
text as well as from a value, as long as the value is not nested too deeply for the place where it
is read. Records are put together from their fields: a field decodes from the member of its name.
-/

/-! ## Depth -/

mutual

/-- How many arrays and objects of a value stand within each other. -/
def depth : Json → Nat
  | .array l => depthItems l + 1
  | .object m => depthMembers m + 1
  | _ => 0

def depthItems : List Json → Nat
  | [] => 0
  | j :: r => max (depth j) (depthItems r)

def depthMembers : List (String × Json) → Nat
  | [] => 0
  | (_, j) :: r => max (depth j) (depthMembers r)

end

theorem depthMembers_le_iff {m : List (String × Json)} {n : Nat} :
    depthMembers m ≤ n ↔ ∀ e ∈ m, depth e.2 ≤ n := by
  induction m with
  | nil => simp [depthMembers]
  | cons e r ih => rw [depthMembers, Nat.max_le, ih, List.forall_mem_cons]

theorem depth_le_depthMembers {m : List (String × Json)} {e : String × Json} (h : e ∈ m) :
    depth e.2 ≤ depthMembers m :=
  depthMembers_le_iff.mp (Nat.le_refl _) e h

/-- Whether a value of some depth may be read at a cursor. -/
def Cursor.Admits (c : Cursor) (n : Nat) : Prop := c.origin = .text → n < c.depth

namespace Cursor

theorem admits_ofValue (n : Nat) : Admits .ofValue n := by
  intro h
  cases h

theorem admits_ofBuffer (n : Nat) : Admits .ofBuffer n := by
  intro h
  cases h

theorem admits_ofText {n : Nat} (h : n < 128) : Admits .ofText n := fun _ => h

theorem Admits.mono {c : Cursor} {m n : Nat} (h : c.Admits n) (hle : m ≤ n) : c.Admits m :=
  fun ho => Nat.lt_of_le_of_lt hle (h ho)

theorem Admits.enter {c : Cursor} {n : Nat} (h : c.Admits (n + 1)) :
    ∃ c', c.enter = .ok c' ∧ c'.Admits n := by
  obtain ⟨origin, d⟩ := c
  cases origin with
  | text =>
    have hd : n + 1 < d := h rfl
    refine ⟨⟨.text, d - 1⟩, ?_, fun _ => by simp only; omega⟩
    simp only [Cursor.enter]
    rw [if_neg (by omega)]
  | value => exact ⟨⟨.value, d⟩, rfl, by rintro ⟨⟩⟩
  | buffered => exact ⟨⟨.buffered, d⟩, rfl, by rintro ⟨⟩⟩

end Cursor

/-! ## Decoders -/

variable {α β : Type}

/-- A decoder takes a document, where one nested this deep may be read, for something. -/
def Takes (d : Decoder α) (n : Nat) (x : Doc) (a : α) : Prop :=
  ∀ c : Cursor, c.Admits n → d c x = .ok a

theorem Takes.mono {d : Decoder α} {m n : Nat} {x : Doc} {a : α} (h : Takes d m x a)
    (hle : m ≤ n) : Takes d n x a :=
  fun c hc => h c (hc.mono hle)

theorem Takes.map {d : Decoder α} {n : Nat} {x : Doc} {a : α} (h : Takes d n x a) (f : α → β) :
    Takes (d.map f) n x (f a) := by
  intro c hc
  rw [Decoder.map, h c hc]
  rfl

/-- A decoder takes the document of a value for what the value stands for. -/
def Decodes (d : Decoder α) (j : Json) (a : α) : Prop :=
  ∀ c : Cursor, c.Admits (depth j) → d c (Doc.ofJson j) = .ok a

theorem Decodes.takes {d : Decoder α} {j : Json} {a : α} (h : Decodes d j a) :
    Takes d (depth j) (Doc.ofJson j) a :=
  h

theorem Decodes.ofJson {d : Decoder α} {j : Json} {a : α} (h : Decodes d j a) :
    d.ofJson j = .ok a :=
  h .ofValue (Cursor.admits_ofValue _)

theorem Decodes.map {d : Decoder α} {j : Json} {a : α} (h : Decodes d j a) (f : α → β) :
    Decodes (d.map f) j (f a) :=
  h.takes.map f

theorem decodes_string (s : String) : Decodes Decoder.string (.string s) s := fun _ _ => rfl

theorem decodes_bool (b : Bool) : Decodes Decoder.bool (.bool b) b := fun _ _ => rfl

theorem decodes_integer {i : Int} (hi : 0 ≤ i ∧ i < 18446744073709551616) :
    Decodes Decoder.word (.number (.integer i)) (UInt64.ofNat i.toNat) := by
  intro c _
  rw [Doc.ofJson, Decoder.word]
  simp only [Lexeme.get, Lexeme.ok, Except.mapError, bind, Except.bind, if_pos hi]
  rfl

theorem decodes_word (n : UInt64) : Decodes Decoder.word (.number (.integer n.toNat)) n := by
  have hlt := n.toNat_lt
  have hword := decodes_integer (i := n.toNat) (by omega)
  rwa [Int.toNat_natCast, UInt64.ofNat_toNat] at hword

theorem decodes_option {d : Decoder α} {j : Json} {a : α} (h : Decodes d j a) (hj : j ≠ .null) :
    Decodes d.option j (some a) := by
  intro c hc
  have hd := h c hc
  cases j with
  | null => exact absurd rfl hj
  | _ =>
    simp only [Doc.ofJson] at hd
    simp only [Doc.ofJson, Decoder.option, hd, Except.map]

theorem decodes_enumeration {known : List (String × α)} {name : String} {a : α}
    (h : known.lookup name = some a) :
    Decodes (Decoder.enumeration known) (.string name) a := by
  intro c _
  simp [Doc.ofJson, Decoder.enumeration, Lexeme.get, Lexeme.ok, Except.mapError, Decoder.variant, h,
    bind, Except.bind]

theorem items_ofItems {d : Decoder α} {c : Cursor} {js : List Json} {as : List α}
    (h : List.Forall₂ (Decodes d) js as) (hc : c.Admits (depthItems js)) (i : Nat) :
    Decoder.items d c .closed i (ofItems js) = .ok as := by
  induction h generalizing i with
  | nil => rfl
  | cons ha _ ih =>
    have hhead := ha c (hc.mono (Nat.le_max_left _ _))
    have htail := ih (hc.mono (Nat.le_max_right _ _)) (i + 1)
    simp [ofItems, Decoder.items, inside, hhead, htail, Except.mapError, bind, Except.bind, pure,
      Except.pure]

theorem decodes_array {d : Decoder α} {js : List Json} {as : List α}
    (h : List.Forall₂ (Decodes d) js as) : Decodes d.list (.array js) as := by
  intro c hc
  obtain ⟨c', henter, hc'⟩ := Cursor.Admits.enter hc
  simp [Doc.ofJson, Decoder.list, henter, items_ofItems h hc' 0, bind, Except.bind]

theorem decodes_list {d : Decoder α} {f : α → Json} (h : ∀ a, Decodes d (f a) a) (l : List α) :
    Decodes d.list (.array (l.map f)) l :=
  decodes_array (List.forall₂_map_left_iff.mpr (List.forall₂_same.mpr fun a _ => h a))

/-- The members of an object of which all names were read. -/
def keyed (m : List (String × Doc)) : List (Lexeme String × Doc) := m.map fun e => (.ok e.1, e.2)

def docs (m : List (String × Json)) : List (String × Doc) := m.map fun e => (e.1, Doc.ofJson e.2)

theorem ofMembers_eq (m : List (String × Json)) : ofMembers m = keyed (docs m) := by
  induction m with
  | nil => rfl
  | cons e m ih =>
    rw [ofMembers, ih]
    rfl

theorem members_keyed {d : Decoder α} {n : Nat} {m : List (String × Doc)} {as : List (String × α)}
    (h : List.Forall₂ (fun e a => e.1 = a.1 ∧ Takes d n e.2 a.2) m as) {c : Cursor}
    (hc : c.Admits n) : Decoder.members d c .closed (keyed m) = .ok as := by
  induction h with
  | nil => rfl
  | @cons e a m as hhead _ ih =>
    obtain ⟨hname, htakes⟩ := hhead
    rw [keyed, List.map_cons, ← keyed]
    simp [Decoder.members, inside, htakes c hc, ih, hname, Lexeme.get, Lexeme.ok, Except.mapError,
      bind, Except.bind, pure, Except.pure]

theorem takes_sortedMap {d : Decoder α} {n : Nat} {m : List (String × Doc)} {s : SortedMap α}
    (h : List.Forall₂ (fun e a => e.1 = a.1 ∧ Takes d n e.2 a.2) m s.entries) :
    Takes d.sortedMap (n + 1) (.object (keyed m) .closed) s := by
  intro c hc
  obtain ⟨c', henter, hc'⟩ := Cursor.Admits.enter hc
  simp [Decoder.sortedMap, henter, members_keyed h hc', bind, Except.bind, pure, Except.pure]

theorem decodes_sortedMap {d : Decoder α} {f : α → Json} (h : ∀ a, Decodes d (f a) a)
    (m : SortedMap α) :
    Decodes d.sortedMap (.object (m.entries.map fun e => (e.1, f e.2))) m := by
  have hpairs : List.Forall₂
      (fun e a => e.1 = a.1 ∧ Takes d (depthMembers (m.entries.map fun e => (e.1, f e.2))) e.2 a.2)
      (docs (m.entries.map fun e => (e.1, f e.2))) m.entries := by
    rw [docs, List.map_map]
    refine List.forall₂_map_left_iff.mpr (List.forall₂_same.mpr fun e he => ⟨rfl, ?_⟩)
    exact (h e.2).takes.mono
      (depth_le_depthMembers (List.mem_map_of_mem (f := fun e => (e.1, f e.2)) he))
  have htakes := takes_sortedMap hpairs
  rwa [← ofMembers_eq] at htakes

/-! ## Free values -/

mutual

theorem anything_ofJson : (j : Json) → (c : Cursor) → c.Admits (depth j) →
    Decoder.anything c (Doc.ofJson j) = .ok j
  | .null, _, _ | .bool _, _, _ | .number _, _, _ | .string _, _, _ => rfl
  | .array l, c, hc => by
    obtain ⟨c', henter, hc'⟩ := Cursor.Admits.enter hc
    have hitems := anythingItems_ofItems l c' 0 hc'
    simp [Doc.ofJson, Decoder.anything, henter, hitems, bind, Except.bind, pure, Except.pure]
  | .object m, c, hc => by
    obtain ⟨c', henter, hc'⟩ := Cursor.Admits.enter hc
    have hmembers := anythingMembers_ofMembers m c' hc'
    simp [Doc.ofJson, Decoder.anything, henter, hmembers, bind, Except.bind, pure, Except.pure]

theorem anythingItems_ofItems : (l : List Json) → (c : Cursor) → (i : Nat) →
    c.Admits (depthItems l) → Decoder.anythingItems c .closed i (ofItems l) = .ok l
  | [], _, _, _ => rfl
  | j :: r, c, i, hc => by
    have hj := anything_ofJson j c (hc.mono (Nat.le_max_left _ _))
    have hr := anythingItems_ofItems r c (i + 1) (hc.mono (Nat.le_max_right _ _))
    simp [ofItems, Decoder.anythingItems, inside, hj, hr, Except.mapError, bind, Except.bind, pure,
      Except.pure]

theorem anythingMembers_ofMembers : (m : List (String × Json)) → (c : Cursor) →
    c.Admits (depthMembers m) → Decoder.anythingMembers c .closed (ofMembers m) = .ok m
  | [], _, _ => rfl
  | (k, j) :: r, c, hc => by
    have hj := anything_ofJson j c (hc.mono (Nat.le_max_left _ _))
    have hr := anythingMembers_ofMembers r c (hc.mono (Nat.le_max_right _ _))
    simp [ofMembers, Decoder.anythingMembers, inside, hj, hr, Lexeme.get, Lexeme.ok,
      Except.mapError, bind, Except.bind, pure, Except.pure]

end

end HostAgent.Json
