import HostAgent.Container.Basic
import HostAgent.SortedMap

namespace HostAgent.Container

/-!
# A simulated engine

An engine that only keeps account of its containers. Names are unique, identifiers count upwards
and are never given twice, and a container has an address for as long as it runs.
-/

structure Simulated where
  name : String
  address : String
  running : Bool
  deriving DecidableEq, Repr, Inhabited

/-- The simulated engine: its containers, the calls so far, how many containers were created, the
address of those started from now on, and whether starts or inspections are to fail. -/
structure Engine where
  containers : SortedMap Simulated
  calls : List Call
  created : Nat
  address : String
  failStarts : Bool
  failInspects : Bool

/-- What is set on a simulated engine from outside. -/
inductive Switch where
  | address (address : String)
  | failStarts (fail : Bool)
  | failInspects (fail : Bool)
  deriving DecidableEq, Repr

namespace Engine

def ofAddress (address : String) : Engine := ⟨.empty, [], 0, address, false, false⟩

instance : Inhabited Engine := ⟨ofAddress "172.17.0.2"⟩

def failing : Engine := { (default : Engine) with failStarts := true }

def set (e : Engine) : Switch → Engine
  | .address address => { e with address := address }
  | .failStarts fail => { e with failStarts := fail }
  | .failInspects fail => { e with failInspects := fail }

/-- The identifier of the container with a number: sixty digits in base sixteen. -/
def idOf (n : Nat) : String :=
  let ds := Nat.toDigits 16 n
  "mock" ++ String.ofList (List.replicate (60 - ds.length) '0' ++ ds)

def hasName (e : Engine) (name : String) : Bool :=
  e.containers.values.any fun c => c.name == name

/-- The specifications of the containers that were to be created, in order. -/
def specs (e : Engine) : List Spec :=
  e.calls.filterMap fun
    | .create spec => some spec
    | _ => none

def count (e : Engine) : Nat := e.containers.entries.length

def note (e : Engine) (c : Call) : Engine := { e with calls := e.calls ++ [c] }

def create (e : Engine) (spec : Spec) : Except Error String × Engine :=
  if e.hasName spec.name then
    (.error (.api 409 s!"container name {spec.name} is already in use"), e)
  else
    let id := idOf (e.created + 1)
    (.ok id, { e with
      created := e.created + 1
      containers := e.containers.insert id ⟨spec.name, "", false⟩ })

def change (e : Engine) (id : String) (f : Simulated → Simulated) : Except Error Unit × Engine :=
  match e.containers.get? id with
  | none => (.error (.notFound id), e)
  | some c => (.ok (), { e with containers := e.containers.insert id (f c) })

def start (e : Engine) (id : String) : Except Error Unit × Engine :=
  if e.failStarts then (.error (.failed "mock runtime configured to fail"), e)
  else e.change id fun c => { c with running := true, address := e.address }

def stop (e : Engine) (id : String) : Except Error Unit × Engine :=
  e.change id fun c => { c with running := false, address := "" }

def remove (e : Engine) (id : String) : Except Error Unit × Engine :=
  match e.containers.get? id with
  | none => (.error (.notFound id), e)
  | some _ => (.ok (), { e with containers := e.containers.erase id })

def inspect (e : Engine) (id : String) : Except Error Status :=
  if e.failInspects then .error (.failed "mock runtime configured to fail inspections")
  else
    match e.containers.get? id with
    | none => .error (.notFound id)
    | some c => .ok ⟨id, "/" ++ c.name, c.address, c.running⟩

def step : (c : Call) → Engine → c.Answer × Engine
  | .ping, e => (.ok (), e)
  | .create spec, e => (e.note (.create spec)).create spec
  | .start id, e => (e.note (.start id)).start id
  | .stop id grace, e => (e.note (.stop id grace)).stop id
  | .remove id volumes, e => (e.note (.remove id volumes)).remove id
  | .inspect id, e => (e.inspect id, e.note (.inspect id))

end Engine

end HostAgent.Container
