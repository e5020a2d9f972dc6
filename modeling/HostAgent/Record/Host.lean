import HostAgent.Record.Basic

namespace HostAgent

/-!
# Hosts and settings

A host is known by its identifier, which it keeps over restarts, and reached at the address of its
agent. The settings are shared by all hosts.
-/

structure Host where
  uuid : String
  name : String
  /-- Where the agent of the host listens, `ip:port`. -/
  address : String
  deriving DecidableEq, Repr, Inhabited

namespace Host

def fields : Json.Fields Host :=
  Host.mk <$> .required "uuid" .string <*> .required "name" .string <*>
    .required "address" .string

instance : Record Host where
  toJson h := .object [("uuid", .string h.uuid), ("name", .string h.name),
    ("address", .string h.address)]
  decoder := Json.record "struct HostInfo" fields

end Host

structure Settings where
  backupTarget : String
  image : String
  deriving DecidableEq, Repr, Inhabited

namespace Settings

/-- The backup target of a cluster whose settings were never stored. -/
def defaultBackupTarget : String := "vfs:///var/lib/longhorn/backups/default"

/-- The settings of a cluster that never stored any. -/
def withDefaultTarget (image : String) : Settings := ⟨defaultBackupTarget, image⟩

def fields : Json.Fields Settings :=
  Settings.mk <$> .required "backup_target" .string <*> .required "longhorn_image" .string

instance : Record Settings where
  toJson s := .object [("backup_target", .string s.backupTarget),
    ("longhorn_image", .string s.image)]
  decoder := Json.record "struct SettingsInfo" fields

end Settings

end HostAgent
