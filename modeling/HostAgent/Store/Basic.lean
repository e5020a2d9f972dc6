import HostAgent.Store.Error
import HostAgent.Task

namespace HostAgent.Store

/-!
# The shared store

The cluster keeps its records in a store of texts under keys. Every write gives the key a new
modification index, and a write may be made to depend on the index that the key still has.
-/

/-- A stored text and the index of the write that stored it. -/
structure Entry where
  value : String
  index : Nat
  deriving DecidableEq, Repr, Inhabited

inductive Call where
  | get (key : String)
  /-- The entries directly below a directory. -/
  | list (dir : String)
  | set (key value : String)
  /-- Writes only a key that is absent. -/
  | create (key value : String)
  /-- Writes only a key that still has the given index. -/
  | compareAndSet (key value : String) (index : Nat)
  | delete (key : String)
  deriving DecidableEq, Repr

def Call.Answer : Call → Type
  | .get _ => Except Error (Option Entry)
  | .list _ => Except Error (List (String × Entry))
  | .set _ _ | .create _ _ | .compareAndSet _ _ _ => Except Error Nat
  | .delete _ => Except Error Bool

def Call.failed (e : Error) : (c : Call) → c.Answer
  | .get _ => .error e
  | .list _ => .error e
  | .set _ _ => .error e
  | .create _ _ => .error e
  | .compareAndSet _ _ _ => .error e
  | .delete _ => .error e

def Call.key : Call → String
  | .get key | .list key | .set key _ | .create key _ | .compareAndSet key _ _ | .delete key => key

inductive Method where
  | get
  | list
  | set
  | create
  | compareAndSet
  | delete
  deriving DecidableEq, Repr

def Call.method : Call → Method
  | .get _ => .get
  | .list _ => .list
  | .set _ _ => .set
  | .create _ _ => .create
  | .compareAndSet _ _ _ => .compareAndSet
  | .delete _ => .delete

def Method.name : Method → String
  | .get => "get"
  | .list => "list"
  | .set => "set"
  | .create => "create"
  | .compareAndSet => "compare_and_set"
  | .delete => "delete"

def Method.writes : Method → Bool
  | .get | .list => false
  | .set | .create | .compareAndSet | .delete => true

abbrev interface : Interface := ⟨Call, Call.Answer⟩

end HostAgent.Store
