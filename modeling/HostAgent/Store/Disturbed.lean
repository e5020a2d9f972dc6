import HostAgent.Store.Memory

namespace HostAgent.Store

/-!
# A store with faults and rivals

A store in memory in which calls can be made to fail, and in which another writer can act at the
worst moment: after a conditional write was sent and before it is compared.
-/

inductive Rival where
  /-- Writes the present text again. -/
  | touch
  | delete
  | write (value : String)
  | rest
  deriving DecidableEq, Repr

def Rival.act (r : Rival) (key : String) (m : Memory) : Memory :=
  match r with
  | .touch =>
    match m.get? key with
    | some e => m.write key e.value
    | none => m
  | .delete => (m.step (.delete key)).2
  | .write value => m.write key value
  | .rest => m

structure Disturbed where
  memory : Memory
  /-- For each method, what is to happen to its next calls: a fault, or nothing. -/
  faults : Method → List (Option Error)
  /-- What the rival does within the next conditional writes. -/
  rivals : List Rival
  calls : List Call

namespace Disturbed

def ofMemory (m : Memory) : Disturbed := ⟨m, fun _ => [], [], []⟩

instance : Inhabited Disturbed := ⟨ofMemory .empty⟩

def addFaults (d : Disturbed) (method : Method) (faults : List (Option Error)) : Disturbed :=
  { d with faults := fun m => if m = method then d.faults m ++ faults else d.faults m }

def addRivals (d : Disturbed) (rivals : List Rival) : Disturbed :=
  { d with rivals := d.rivals ++ rivals }

/-- Takes the fault that waits for a call, if any. -/
def takeFault (d : Disturbed) (method : Method) : Option Error × Disturbed :=
  match d.faults method with
  | [] => (none, d)
  | f :: r => (f, { d with faults := fun m => if m = method then r else d.faults m })

/-- Lets the rival act, if the call is a conditional write. -/
def letRivalAct (d : Disturbed) : Call → Disturbed
  | .compareAndSet key _ _ =>
    match d.rivals with
    | [] => d
    | r :: rest => { d with rivals := rest, memory := r.act key d.memory }
  | _ => d

def step (c : Call) (d : Disturbed) : c.Answer × Disturbed :=
  let d := { d with calls := d.calls ++ [c] }
  match d.takeFault c.method with
  | (some e, d) => (c.failed e, d)
  | (none, d) =>
    let d := d.letRivalAct c
    let (a, m) := Memory.step c d.memory
    (a, { d with memory := m })

end Disturbed

end HostAgent.Store
