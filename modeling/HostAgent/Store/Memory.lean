import HostAgent.SortedMap
import HostAgent.Store.Basic
import HostAgent.Text.Blank

namespace HostAgent.Store

/-!
# A store in memory

All entries in one map, and the index of the last write. Deletions do not count as writes, so an
index is never given twice, not even to a key that was deleted in between.
-/

structure Memory where
  entries : SortedMap Entry
  index : Nat
  deriving DecidableEq

namespace Memory

def empty : Memory := ⟨.empty, 0⟩

instance : Inhabited Memory := ⟨empty⟩

def write (m : Memory) (key value : String) : Memory :=
  ⟨m.entries.insert key ⟨value, m.index + 1⟩, m.index + 1⟩

def get? (m : Memory) (key : String) : Option Entry := m.entries.get? key

/-- The keys below a directory begin with this text. -/
def below (dir : String) : String := Text.trimSlashes dir ++ "/"

def startsWith (start key : String) : Bool := start.toList.isPrefixOf key.toList

/-- Whether a key that begins with a text has no slash after it. -/
def isChild (start key : String) : Bool := !(key.toList.drop start.length).contains '/'

/-- The entries directly below a directory, from the first key that could be one to the first that
is not below it. -/
def children (m : Memory) (dir : String) : List (String × Entry) :=
  let start := below dir
  ((m.entries.entries.dropWhile fun e => e.1 < start).takeWhile fun e =>
    startsWith start e.1).filter fun e => isChild start e.1

def step : (c : Call) → Memory → c.Answer × Memory
  | .get key, m => (.ok (m.get? key), m)
  | .list dir, m => (.ok (m.children dir), m)
  | .set key value, m => (.ok (m.index + 1), m.write key value)
  | .create key value, m =>
    if (m.get? key).isSome then (.error (.conflict key), m)
    else (.ok (m.index + 1), m.write key value)
  | .compareAndSet key value index, m =>
    if (m.get? key).map Entry.index = some index then (.ok (m.index + 1), m.write key value)
    else (.error (.conflict key), m)
  | .delete key, m => (.ok (m.get? key).isSome, { m with entries := m.entries.erase key })

@[simp] theorem get?_write (m : Memory) (key value j : String) :
    (m.write key value).get? j = if j = key then some ⟨value, m.index + 1⟩ else m.get? j := by
  simp [write, get?, SortedMap.get?_insert]

@[simp] theorem index_write (m : Memory) (key value : String) :
    (m.write key value).index = m.index + 1 := rfl

end Memory

end HostAgent.Store
