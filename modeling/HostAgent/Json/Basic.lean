import HostAgent.Decimal.Binary64
import HostAgent.SortedMap

namespace HostAgent

/-!
# JSON values

A value keeps the members of its objects in the order in which they stand, repetitions included.
A free value of a record is one whose objects have ascending names; `Json.canonical` brings any
value into that form, the last member of a name winning.
-/

namespace Json

/-- A number: an integer of at most sixty-four bits, or a binary floating point number. -/
inductive Number where
  | integer (value : Int)
  | float (value : Decimal.Binary64)
  deriving DecidableEq, Repr, Inhabited

end Json

inductive Json where
  | null
  | bool (value : Bool)
  | number (value : Json.Number)
  | string (value : String)
  | array (items : List Json)
  | object (members : List (String × Json))
  deriving Repr, Inhabited

namespace Json

mutual

def decEq : (a b : Json) → Decidable (a = b)
  | .null, .null => isTrue rfl
  | .bool a, .bool b => decidable_of_iff (a = b) (by simp)
  | .number a, .number b => decidable_of_iff (a = b) (by simp)
  | .string a, .string b => decidable_of_iff (a = b) (by simp)
  | .array a, .array b =>
    have := decEqItems a b
    decidable_of_iff (a = b) (by simp)
  | .object a, .object b =>
    have := decEqMembers a b
    decidable_of_iff (a = b) (by simp)
  | .null, .bool _ | .null, .number _ | .null, .string _ | .null, .array _ | .null, .object _
  | .bool _, .null | .bool _, .number _ | .bool _, .string _ | .bool _, .array _
  | .bool _, .object _
  | .number _, .null | .number _, .bool _ | .number _, .string _ | .number _, .array _
  | .number _, .object _
  | .string _, .null | .string _, .bool _ | .string _, .number _ | .string _, .array _
  | .string _, .object _
  | .array _, .null | .array _, .bool _ | .array _, .number _ | .array _, .string _
  | .array _, .object _
  | .object _, .null | .object _, .bool _ | .object _, .number _ | .object _, .string _
  | .object _, .array _ => isFalse (by simp)

def decEqItems : (a b : List Json) → Decidable (a = b)
  | [], [] => isTrue rfl
  | [], _ :: _ => isFalse (by simp)
  | _ :: _, [] => isFalse (by simp)
  | a :: r, b :: s =>
    have := decEq a b
    have := decEqItems r s
    decidable_of_iff (a = b ∧ r = s) (by simp)

def decEqMembers : (a b : List (String × Json)) → Decidable (a = b)
  | [], [] => isTrue rfl
  | [], _ :: _ => isFalse (by simp)
  | _ :: _, [] => isFalse (by simp)
  | (j, a) :: r, (k, b) :: s =>
    have := decEq a b
    have := decEqMembers r s
    decidable_of_iff (j = k ∧ a = b ∧ r = s) (by simp [and_assoc])

end

instance : DecidableEq Json := decEq

mutual

/-- The same value with the names of every object ascending; of members with one name the last
stays. -/
def canonical : Json → Json
  | .array l => .array (canonicalItems l)
  | .object m => .object (canonicalMembers m []) 
  | j => j

def canonicalItems : List Json → List Json
  | [] => []
  | j :: r => canonical j :: canonicalItems r

/-- Enters the members into the entries collected so far. -/
def canonicalMembers : List (String × Json) → List (String × Json) → List (String × Json)
  | [], acc => acc
  | (k, j) :: r, acc => canonicalMembers r (Entries.insert k (canonical j) acc)

end

mutual

def Ordered : Json → Prop
  | .array l => OrderedItems l
  | .object m => Ascending m ∧ OrderedMembers m
  | _ => True

def OrderedItems : List Json → Prop
  | [] => True
  | j :: r => Ordered j ∧ OrderedItems r

def OrderedMembers : List (String × Json) → Prop
  | [] => True
  | (_, j) :: r => Ordered j ∧ OrderedMembers r

end

theorem orderedMembers_iff {m : List (String × Json)} :
    OrderedMembers m ↔ ∀ e ∈ m, Ordered e.2 := by
  induction m with
  | nil => simp [OrderedMembers]
  | cons e r ih => simp [OrderedMembers, ih]

theorem orderedMembers_insert {k : String} {j : Json} {m : List (String × Json)}
    (hj : Ordered j) (hm : OrderedMembers m) : OrderedMembers (Entries.insert k j m) := by
  rw [orderedMembers_iff] at hm ⊢
  intro e he
  rcases Entries.mem_insert he with rfl | he
  · exact hj
  · exact hm e he

mutual

theorem ordered_canonical : (j : Json) → Ordered (canonical j)
  | .null | .bool _ | .number _ | .string _ => by simp [canonical, Ordered]
  | .array l => by
    simp only [canonical, Ordered]
    exact ordered_canonicalItems l
  | .object m => by
    simp only [canonical, Ordered]
    exact ordered_canonicalMembers m [] .nil (by simp [OrderedMembers])

theorem ordered_canonicalItems : (l : List Json) → OrderedItems (canonicalItems l)
  | [] => by simp [canonicalItems, OrderedItems]
  | j :: r => by
    simp only [canonicalItems, OrderedItems]
    exact ⟨ordered_canonical j, ordered_canonicalItems r⟩

theorem ordered_canonicalMembers : (m acc : List (String × Json)) → Ascending acc →
    OrderedMembers acc →
      Ascending (canonicalMembers m acc) ∧ OrderedMembers (canonicalMembers m acc)
  | [], acc, ha, ho => by simpa [canonicalMembers] using ⟨ha, ho⟩
  | (k, j) :: r, acc, ha, ho => by
    rw [canonicalMembers]
    exact ordered_canonicalMembers r _ (Entries.ascending_insert k _ ha)
      (orderedMembers_insert (ordered_canonical j) ho)

end

/-- A free value inside a record: its objects have ascending names. -/
structure Value where
  json : Json
  ordered : json.Ordered
  deriving DecidableEq

def value (j : Json) : Value := ⟨j.canonical, j.ordered_canonical⟩

end Json

end HostAgent
