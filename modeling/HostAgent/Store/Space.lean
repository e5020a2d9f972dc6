import HostAgent.Record.Host
import HostAgent.Record.Volume
import HostAgent.Store.Basic
import HostAgent.Text.Blank

namespace HostAgent.Store

/-!
# The records of a cluster

A cluster has its records below a root of its own: hosts and volumes in a directory each, under
their identifiers and names, and the settings in one key. Operations are tasks on the store. A
volume is changed by reading it, changing it, and writing it back on the condition that nobody
wrote it in between; a writer that comes second begins again, five times at most.
-/

abbrev Op (α : Type) := ExceptT Error (Task interface) α

def Op.ask {α : Type} (t : Task interface (Except Error α)) : Op α := ExceptT.mk t

def get (key : String) : Op (Option Entry) := .ask (Task.call (I := interface) (.get key))

def list (dir : String) : Op (List (String × Entry)) :=
  .ask (Task.call (I := interface) (.list dir))

def set (key value : String) : Op Nat := .ask (Task.call (I := interface) (.set key value))

def create (key value : String) : Op Nat := .ask (Task.call (I := interface) (.create key value))

def compareAndSet (key value : String) (index : Nat) : Op Nat :=
  .ask (Task.call (I := interface) (.compareAndSet key value index))

def delete (key : String) : Op Bool := .ask (Task.call (I := interface) (.delete key))

/-- The keys of one cluster, all below one root. -/
structure Space where
  root : String
  deriving DecidableEq, Repr, Inhabited

namespace Space

/-- The space below a root, slashes at whose end do not count. -/
def ofRoot (root : String) : Space := ⟨Text.trimSlashes root⟩

def hostsDir (s : Space) : String := s.root ++ "/hosts"

def hostKey (s : Space) (uuid : String) : String := s.root ++ "/hosts/" ++ uuid

def volumesDir (s : Space) : String := s.root ++ "/volumes"

def volumeKey (s : Space) (name : String) : String := s.root ++ "/volumes/" ++ name

def settingsKey (s : Space) : String := s.root ++ "/settings"

section Records

variable {α : Type} [Record α]

def decode (text : String) : Except Error α := (Record.ofString text).mapError .json

def put (key : String) (a : α) : Op Unit := do
  let _ ← set key (Record.text a)

def fetch (key : String) : Op (Option (α × Nat)) := do
  match ← get key with
  | none => return none
  | some e =>
    let a ← liftM (decode (α := α) e.value)
    return some (a, e.index)

def fetchAll (dir : String) : Op (List α) := do
  let entries ← list dir
  liftM (entries.mapM fun e => decode (α := α) e.2.value)

end Records

def setHost (s : Space) (h : Host) : Op Unit := put (s.hostKey h.uuid) h

def getHost (s : Space) (uuid : String) : Op (Option Host) := do
  return (← fetch (s.hostKey uuid)).map Prod.fst

def listHosts (s : Space) : Op (List Host) := fetchAll s.hostsDir

/-- Stores a new volume; it conflicts with one of its name. -/
def createVolume (s : Space) (v : Volume) : Op Unit := do
  let _ ← create (s.volumeKey v.name) (Record.text v)

def setVolume (s : Space) (v : Volume) : Op Unit := put (s.volumeKey v.name) v

def getVolume (s : Space) (name : String) : Op (Option Volume) := do
  return (← fetch (s.volumeKey name)).map Prod.fst

def listVolumes (s : Space) : Op (List Volume) := fetchAll s.volumesDir

/-- Deletes a volume and says whether there was one. -/
def deleteVolume (s : Space) (name : String) : Op Bool := delete (s.volumeKey name)

def getSettings (s : Space) : Op (Option Settings) := do
  return (← fetch s.settingsKey).map Prod.fst

def setSettings (s : Space) (settings : Settings) : Op Unit := put s.settingsKey settings

def maxRounds : Nat := 5

/-- An operation on the store by the side of another part, on which the change itself relies. -/
abbrev Change (M : Interface) (α : Type) := ExceptT Error (Task (interface.sum M)) α

def Change.ofOp {M : Interface} {α : Type} (op : Op α) : Change M α := ExceptT.mk (Task.inl op.run)

def Change.ofTask {M : Interface} {α : Type} (t : Task M α) : Change M α :=
  ExceptT.mk ((Task.inr t).bind fun a => .done (.ok a))

/-- The rounds of a change that are left. A conflict in the last one is the error. -/
def changeRounds {M : Interface} (key : String) (mutate : Volume → Task M Volume) :
    Nat → Change M (Option Volume)
  | 0 => throw (.conflict key)
  | n + 1 => do
    match ← Change.ofOp (fetch (α := Volume) key) with
    | none => return none
    | some (v, index) =>
      let v ← Change.ofTask (mutate v)
      match ← ExceptT.lift (Change.ofOp (compareAndSet key (Record.text v) index)).run with
      | .ok _ => return some v
      | .error e =>
        if e.isConflict && n != 0 then changeRounds key mutate n else throw e

/-- Changes a stored volume, and answers it as it was written, or nothing if there is none. -/
def changeVolume {M : Interface} (s : Space) (name : String) (mutate : Volume → Task M Volume) :
    Change M (Option Volume) :=
  changeRounds (s.volumeKey name) mutate maxRounds

end Space

end HostAgent.Store
