import HostAgent.Proofs.Store.KeyServer
import HostAgent.Proofs.Store.Listing
import Mathlib.Data.Set.Insert

namespace HostAgent.Store

/-!
# Orders

Calls that are made one after the other, each on a condition that an earlier answer gave. What they
come to can be compared between stores that give different indexes.
-/

/-! ## Orders -/

/-- A call that is meant before it can be made: its condition is on an index that will have been
answered by then, named by its place among those answered. -/
inductive Order where
  | get (key : String)
  | list (dir : String)
  | set (key value : String)
  | create (key value : String)
  | compareAndSet (key value : String) (place : Nat)
  | delete (key : String)
  deriving DecidableEq

/-- The call to be made after some indexes have been answered, if its own is among them. -/
def Order.call? (seen : List Nat) : Order → Option Call
  | .get key => some (.get key)
  | .list dir => some (.list dir)
  | .set key value => some (.set key value)
  | .create key value => some (.create key value)
  | .compareAndSet key value place => seen[place]?.map (.compareAndSet key value)
  | .delete key => some (.delete key)

/-- What a call has come to, whichever it was. -/
inductive Reply where
  | found (entry : Option Entry)
  | listed (entries : List (String × Entry))
  | written (index : Nat)
  | deleted (existed : Bool)
  | failed (error : Error)
  deriving DecidableEq

namespace Reply

def ofExcept {α : Type} (f : α → Reply) : Except Error α → Reply
  | .ok a => f a
  | .error e => .failed e

def of : (c : Call) → c.Answer → Reply
  | .get _ => ofExcept .found
  | .list _ => ofExcept .listed
  | .set _ _ | .create _ _ | .compareAndSet _ _ _ => ofExcept .written
  | .delete _ => ofExcept .deleted

def indexes : Reply → List Nat
  | .found e => e.toList.map Entry.index
  | .listed l => l.map fun e => e.2.index
  | .written i => [i]
  | .deleted _ | .failed _ => []

end Reply

variable {σ : Type}

/-- Carries orders out in a world, when some indexes have been answered already. -/
def perform (world : (c : Call) → σ → c.Answer × σ) :
    List Order → List Nat → σ → List Reply × σ
  | [], _, s => ([], s)
  | o :: orders, seen, s =>
    match o.call? seen with
    | none => perform world orders seen s
    | some c =>
      let reply := Reply.of c (world c s).1
      let rest := perform world orders (seen ++ reply.indexes) (world c s).2
      (reply :: rest.1, rest.2)

theorem perform_cons_none {world : (c : Call) → σ → c.Answer × σ} {o : Order} {seen : List Nat}
    (ho : o.call? seen = none) (orders : List Order) (s : σ) :
    perform world (o :: orders) seen s = perform world orders seen s := by
  rw [perform, ho]

theorem perform_cons_some {world : (c : Call) → σ → c.Answer × σ} {o : Order} {seen : List Nat}
    {c : Call} (ho : o.call? seen = some c) (orders : List Order) (s : σ) :
    perform world (o :: orders) seen s =
      (Reply.of c (world c s).1 ::
        (perform world orders (seen ++ (Reply.of c (world c s).1).indexes) (world c s).2).1,
       (perform world orders (seen ++ (Reply.of c (world c s).1).indexes) (world c s).2).2) := by
  rw [perform, ho]

theorem perform_invariant {world : (c : Call) → σ → c.Answer × σ} {P : σ → Prop}
    (hworld : ∀ c s, P s → P (world c s).2) (orders : List Order) (seen : List Nat) {s : σ}
    (hs : P s) : P (perform world orders seen s).2 := by
  induction orders generalizing seen s with
  | nil => exact hs
  | cons o orders ih =>
    cases ho : o.call? seen with
    | none =>
      rw [perform_cons_none ho]
      exact ih seen hs
    | some c =>
      rw [perform_cons_some ho]
      exact ih _ (hworld c s hs)

/-- No index is answered that has not been given. -/
theorem Memory.indexes_le_index {m : Memory} (hm : m.Bounded) (c : Call) :
    ∀ i ∈ (Reply.of c (m.step c).1).indexes, i ≤ (m.step c).2.index := by
  intro i hi
  cases c with
  | get key =>
    obtain ⟨e, he, rfl⟩ := List.mem_map.mp hi
    exact hm key e (Option.mem_toList.mp he)
  | list dir =>
    obtain ⟨⟨k, e⟩, he, rfl⟩ := List.mem_map.mp hi
    obtain ⟨name, rfl, -, hget⟩ := Memory.mem_children.mp he
    exact hm _ e hget
  | set key value =>
    obtain rfl := List.mem_singleton.mp hi
    exact Nat.le_refl _
  | create key value =>
    rw [Memory.step] at hi ⊢
    split at hi
    next => cases hi
    next hget =>
      rw [if_neg hget]
      obtain rfl := List.mem_singleton.mp hi
      exact Nat.le_refl _
  | compareAndSet key value index =>
    rw [Memory.step] at hi ⊢
    split at hi
    next hget =>
      rw [if_pos hget]
      obtain rfl := List.mem_singleton.mp hi
      exact Nat.le_refl _
    next => cases hi
  | delete key => cases hi

/-! ## Other indexes -/

variable {ρ ρ' : Nat → Nat}

def Entry.rename (ρ : Nat → Nat) (e : Entry) : Entry := ⟨e.value, ρ e.index⟩

def Call.rename (ρ : Nat → Nat) : Call → Call
  | .compareAndSet key value index => .compareAndSet key value (ρ index)
  | c => c

namespace Reply

def rename (ρ : Nat → Nat) : Reply → Reply
  | .found e => .found (e.map (Entry.rename ρ))
  | .listed l => .listed (l.map fun e => (e.1, e.2.rename ρ))
  | .written i => .written (ρ i)
  | .deleted b => .deleted b
  | .failed e => .failed e

theorem indexes_rename (r : Reply) : (r.rename ρ).indexes = r.indexes.map ρ := by
  cases r with
  | found e => cases e <;> rfl
  | listed l => simp [rename, indexes, Entry.rename]
  | _ => rfl

theorem rename_congr {r : Reply} (h : ∀ i ∈ r.indexes, ρ i = ρ' i) : r.rename ρ = r.rename ρ' := by
  cases r with
  | found e =>
    cases e with
    | none => rfl
    | some e => simp [rename, Entry.rename, h e.index (by simp [indexes])]
  | listed l =>
    simp only [rename, listed.injEq]
    refine List.map_congr_left fun e he => ?_
    rw [Entry.rename, Entry.rename, h e.2.index (List.mem_map.mpr ⟨e, he, rfl⟩)]
  | written i => simp [rename, h i (by simp [indexes])]
  | deleted b => rfl
  | failed e => rfl

end Reply

theorem Order.call?_map (o : Order) (seen : List Nat) :
    o.call? (seen.map ρ) = (o.call? seen).map (Call.rename ρ) := by
  cases o with
  | compareAndSet key value place =>
    simp only [call?, List.getElem?_map, Option.map_map]
    rfl
  | _ => rfl

/-! ## Keys of records -/

/-- Records are kept under keys of which none is a directory above another one. -/
structure Apart (R : Set String) : Prop where
  keys : ∀ key ∈ R, IsKey key
  apart : ∀ dir ∈ R, ∀ key ∈ R, ¬ Below dir key

/-- What is listed is no key of a record; all else is done to keys of records. -/
def Call.Fits (R : Set String) : Call → Prop
  | .list dir => IsKey dir ∧ dir ∉ R
  | .get key | .set key _ | .create key _ | .compareAndSet key _ _ | .delete key => key ∈ R

def Order.Fits (R : Set String) (o : Order) : Prop :=
  ∀ seen c, o.call? seen = some c → c.Fits R

variable {R : Set String} {c : Call} {key dir name : String}

theorem Call.Fits.rename (h : c.Fits R) : (c.rename ρ).Fits R := by
  cases c <;> exact h

theorem Call.Fits.isKey (hR : Apart R) (h : c.Fits R) : IsKey c.key := by
  cases c with
  | list dir => exact h.1
  | _ => exact hR.keys _ h

theorem below_isKey (h : IsKey dir) : Memory.below dir = dir ++ "/" := by
  obtain ⟨l, -, hnames, rfl⟩ := h
  have htrim := Text.trimSlashes_append (s := (Http.Path.segments l).text) 0 fun c hc =>
    Http.ne_of_unreserved (Http.unreserved_of_getLast? (fun s hs => (hnames s hs).1) hc) (by decide)
  rw [List.replicate_zero, String.ofList_nil, String.append_empty] at htrim
  rw [Memory.below, htrim]

/-- What follows the last slash of a text is determined. -/
theorem eq_of_append_slash {a b s t : List Char} (hs : '/' ∉ s) (ht : '/' ∉ t)
    (h : a ++ '/' :: s = b ++ '/' :: t) : s = t := by
  rcases List.append_eq_append_iff.mp h with ⟨u, rfl, hu⟩ | ⟨u, rfl, hu⟩
  · cases u with
    | nil => exact (List.cons.inj hu).2
    | cons d u =>
      obtain ⟨-, rfl⟩ := List.cons.inj hu
      simp at hs
  · cases u with
    | nil => exact (List.cons.inj hu).2.symm
    | cons d u =>
      obtain ⟨-, rfl⟩ := List.cons.inj hu
      simp at ht

/-- What follows the last slash of a key is a name that is not hidden. -/
theorem IsKey.name_of_append (h : IsKey (dir ++ "/" ++ name)) (hname : '/' ∉ name.toList) :
    Http.IsName name ∧ ¬ Hidden name := by
  obtain ⟨l, hl, hnames, htext⟩ := h
  obtain ⟨front, last, rfl⟩ : ∃ front last, l = front ++ [last] :=
    ⟨l.dropLast, l.getLast hl, (List.dropLast_append_getLast hl).symm⟩
  have hlast := hnames last (by simp)
  have hslash : '/' ∉ last.toList := fun hmem =>
    Http.ne_of_unreserved (hlast.1.unreserved _ hmem) (by decide) rfl
  have hchars := congrArg String.toList htext
  rw [Http.Endpoint.text_append, String.toList_append, String.toList_append, String.toList_append,
    Http.Url.toList_text [last], List.append_assoc, List.flatMap_cons, List.flatMap_nil,
    List.append_nil] at hchars
  obtain rfl : name = last := String.toList_inj.mp (eq_of_append_slash hname hslash hchars)
  exact hlast

end HostAgent.Store
