import HostAgent.Record.Instance
import HostAgent.Time.Reader

namespace HostAgent

/-!
# Volumes

A volume is known by its name. Its replicas stand under keys of their own, which need not be the
names of the replicas.
-/

/-- One copy of the data of a volume. -/
structure Replica where
  inst : Instance
  /-- When the copy was found to be bad; it stays bad. -/
  badSince : Option Time.Timestamp
  deriving DecidableEq, Repr

namespace Replica

instance : Inhabited Replica := ⟨⟨.blank, none⟩⟩

def ofInstance (i : Instance) : Replica := ⟨i, none⟩

def isBad (r : Replica) : Bool := r.badSince.isSome

def timestamp : Json.Decoder Time.Timestamp
  | _, .string l => do
    let s ← l.get
    (Time.Timestamp.read s.toList).mapError fun f => .ofFault (.time f)
  | _, d => .error (Json.mismatch "an RFC 3339 formatted date and time string" d)

def ownFields : Json.Fields (Option Time.Timestamp) :=
  .optional "bad_timestamp" (.option timestamp) none

instance : Record Replica where
  toJson r := .object (r.inst.members ++ match r.badSince with
    | none => []
    | some t => [("bad_timestamp", .string t.text)])
  decoder := (Json.flattened "struct ReplicaInfo" ownFields Instance.fields).map fun r => ⟨r.2, r.1⟩

end Replica

structure Volume where
  name : String
  /-- In octets. -/
  size : UInt64
  image : String
  replicas : SortedMap Replica
  deriving DecidableEq

namespace Volume

def blank : Volume := ⟨"", 0, "", .empty⟩

instance : Inhabited Volume := ⟨blank⟩

/-- The first key, in order, of a replica with the given name. -/
def replicaKey? (v : Volume) (name : String) : Option String :=
  (v.replicas.entries.find? fun e => e.2.inst.name == name).map Prod.fst

def fields : Json.Fields Volume :=
  Volume.mk <$> .required "name" .string <*> .required "size" .word <*>
    .required "longhorn_image" .string <*>
    .optional "replicas" (.sortedMap Record.decoder) .empty

instance : Record Volume where
  toJson v := .object [("name", .string v.name), ("size", .ofWord v.size),
    ("longhorn_image", .string v.image),
    ("replicas", .object (v.replicas.entries.map fun e => (e.1, Record.toJson e.2)))]
  decoder := Json.record "struct VolumeInfo" fields

/-- The volume with the first replica of a name marked bad. Without one it stays as it is. -/
def markBad (v : Volume) (name : String) (now : Time.Timestamp) : Volume :=
  match v.replicaKey? name with
  | none => v
  | some k =>
    match v.replicas.get? k with
    | none => v
    | some r => { v with replicas := v.replicas.insert k { r with badSince := some now } }

end Volume

end HostAgent
