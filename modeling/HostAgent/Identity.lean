import HostAgent.Error
import HostAgent.FilePath
import HostAgent.Store.Memory
import HostAgent.Store.Space
import HostAgent.Text.Blank
import HostAgent.Text.Utf8
import HostAgent.Uuid

namespace HostAgent

/-!
# The identity of a host

A host is known by an identifier that is made when it first starts, and kept in a file from then
on. A file that is there is never written, whatever it holds.
-/

namespace Identity

inductive Call where
  | read (path : String)
  /-- Makes a directory and those above it, unless it is there. -/
  | createDirs (path : String) (mode : Nat)
  /-- Makes a file, which must not be there. -/
  | createFile (path : String) (mode : Nat)
  | write (path : String) (octets : List UInt8)
  | random
  | hostname
  deriving DecidableEq, Repr

def Call.Answer : Call → Type
  | .read _ | .hostname => Except Errno (List UInt8)
  | .createDirs _ _ | .createFile _ _ | .write _ _ => Except Errno Unit
  | .random => BitVec 128

abbrev interface : Interface := ⟨Call, Call.Answer⟩

abbrev Op (α : Type) := ExceptT IdentityError (Task interface) α

def fileName : String := ".physical_host_uuid"

def dirMode : Nat := 0o700

def fileMode : Nat := 0o600

/-- A file operation, with what it was if it fails. -/
def file {α : Type} (op path : String) (t : Task interface (Except Errno α)) : Op α :=
  ExceptT.mk (t.bind fun a => .done (a.mapError fun e => .file op path (.system e)))

def ofOctets (path : String) (octets : List UInt8) : Except IdentityError String :=
  match Text.Utf8.decode? octets with
  | none => .error (.file "read" path .notText)
  | some s =>
    let uuid := Text.trim s
    if uuid = "" then .error (.empty path) else .ok uuid

def generate (dir path : String) : Op String := do
  file "create" dir (Task.call (I := interface) (.createDirs dir dirMode))
  let bits ← ExceptT.lift (Task.call (I := interface) .random)
  let uuid := (Uuid.ofRandom bits).text
  file "create" path (Task.call (I := interface) (.createFile path fileMode))
  file "write" path (Task.call (I := interface) (.write path (Text.Utf8.encode uuid)))
  return uuid

/-- The identifier in the file, or a new one if there is no file. -/
def loadUuid (dir : String) : Op String := do
  let path := FilePath.join dir fileName
  match ← ExceptT.lift (Task.call (I := interface) (.read path)) with
  | .ok octets => liftM (ofOctets path octets)
  | .error e =>
    if e = .noEntry then generate dir path else throw (.file "read" path (.system e))

/-- The record of this host, whose agent listens at the address. -/
def load (dir address : String) : Op Host := do
  let uuid ← loadUuid dir
  match ← ExceptT.lift (Task.call (I := interface) .hostname) with
  | .ok name => return ⟨uuid, Text.Utf8.decodeLossy name, address⟩
  | .error e => throw (.hostname e)

/-- Finds the identity of this host and stores its record, in place of an older one. -/
def register (space : Store.Space) (dir address : String) :
    ExceptT AgentError (Task (interface.sum Store.interface)) Host := do
  let host ← ExceptT.mk ((load dir address).run.inl.bind fun r =>
    .done (r.mapError .identity))
  ExceptT.mk ((Task.inr (J := Store.interface) (space.setHost host).run).bind fun r =>
    .done (r.mapError (.store "register" (space.hostKey host.uuid))))
  return host

/-! ## The place of the file -/

/-- What is at the path of the file, its directory being there. -/
inductive Node where
  | absent
  | directory
  | file (octets : List UInt8) (mode : Nat)
  deriving DecidableEq, Repr, Inhabited

inductive Place where
  | absent
  /-- A file stands where the directory should be. -/
  | blocked
  | directory (mode : Nat) (node : Node)
  deriving DecidableEq, Repr, Inhabited

/-- A machine: the place of the file, the random bits that are to be drawn, and the name. -/
structure Machine where
  place : Place
  random : List (BitVec 128)
  hostname : Except Errno (List UInt8)

namespace Place

def read : Place → Except Errno (List UInt8)
  | .absent | .directory _ .absent => .error .noEntry
  | .blocked => .error .notDirectory
  | .directory _ .directory => .error .isDirectory
  | .directory _ (.file octets _) => .ok octets

def createDirs (mode : Nat) : Place → Except Errno Unit × Place
  | .absent => (.ok (), .directory mode .absent)
  | .blocked => (.error .fileExists, .blocked)
  | .directory m n => (.ok (), .directory m n)

def createFile (mode : Nat) : Place → Except Errno Unit × Place
  | .absent => (.error .noEntry, .absent)
  | .blocked => (.error .notDirectory, .blocked)
  | .directory m .absent => (.ok (), .directory m (.file [] mode))
  | .directory m n => (.error .fileExists, .directory m n)

def write (octets : List UInt8) : Place → Except Errno Unit × Place
  | .directory m (.file _ mode) => (.ok (), .directory m (.file octets mode))
  | p => (p.read.map fun _ => (), p)

def content? : Place → Option (List UInt8)
  | .directory _ (.file octets _) => some octets
  | _ => none

end Place

namespace Machine

/-- Answers a call. All paths are those of the one place. -/
def step : (c : Call) → Machine → c.Answer × Machine
  | .read _, m => (m.place.read, m)
  | .createDirs _ mode, m =>
    let (a, p) := m.place.createDirs mode
    (a, { m with place := p })
  | .createFile _ mode, m =>
    let (a, p) := m.place.createFile mode
    (a, { m with place := p })
  | .write _ octets, m =>
    let (a, p) := m.place.write octets
    (a, { m with place := p })
  | .random, m => (m.random.headD 0, { m with random := m.random.tail })
  | .hostname, m => (m.hostname, m)

/-- Answers a call of a registration, on a machine and on a store. -/
def stepWithStore : (c : (interface.sum Store.interface).Call) → Machine × Store.Memory →
    (interface.sum Store.interface).Answer c × (Machine × Store.Memory)
  | .inl c, (m, s) =>
    let (a, m) := step c m
    (a, m, s)
  | .inr c, (m, s) =>
    let (a, s) := Store.Memory.step c s
    (a, m, s)

end Machine

end Identity

end HostAgent
