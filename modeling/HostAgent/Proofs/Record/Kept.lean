import HostAgent.Proofs.Json.Fields
import HostAgent.Proofs.Json.Text
import HostAgent.Proofs.Text.Utf8
import HostAgent.Proofs.Time.Text
import HostAgent.Record.Host
import HostAgent.Record.Volume

namespace HostAgent

/-!
# Records that texts keep

A record is kept where its text gives it back: its value decodes to it, holds no number that a text
would change, and is not nested more deeply than texts may be. Such a record is also given back by
the octets of its text and by the value itself.
-/

/-- A record is given back by what it is encoded as. -/
structure Record.Kept {α : Type} [Record α] (a : α) : Prop where
  decodes : Json.Decodes Record.decoder (Record.toJson a) a
  integral : Json.Integral (Record.toJson a)
  shallow : Json.depth (Record.toJson a) < 128

class LawfulRecord (α : Type) [Record α] : Prop where
  kept : ∀ a : α, Record.Kept a

namespace Record

variable {α : Type} [Record α] {a : α}

theorem ofInput_text_of_decodes {b : α} (h : Json.Decodes Record.decoder (toJson a) b)
    (hintegral : Json.Integral (toJson a)) (hshallow : Json.depth (toJson a) < 128) :
    Record.ofInput ((Record.text a).toList.map some) = .ok b := by
  rw [Record.text, Json.text, String.toList_ofList]
  exact Json.ofInput_print hintegral (h .ofText (Json.Cursor.admits_ofText hshallow))

theorem Kept.ofInput_text (h : Kept a) :
    Record.ofInput ((Record.text a).toList.map some) = .ok a :=
  ofInput_text_of_decodes h.decodes h.integral h.shallow

theorem Kept.ofString_text (h : Kept a) : Record.ofString (Record.text a) = .ok a :=
  h.ofInput_text

theorem Kept.ofInput_encode (h : Kept a) :
    Record.ofInput (Text.Utf8.symbols (Text.Utf8.encode (Record.text a))) = .ok a := by
  rw [Text.Utf8.symbols_encode]
  exact h.ofInput_text

@[simp] theorem ofString_text [LawfulRecord α] (a : α) :
    Record.ofString (Record.text a) = .ok a :=
  (LawfulRecord.kept a).ofString_text

theorem text_injective [LawfulRecord α] : Function.Injective (Record.text (α := α)) := by
  intro a b h
  have ha := ofString_text a
  rw [h, ofString_text b] at ha
  exact (Except.ok.inj ha).symm

end Record

open Json

theorem Json.integral_ofWord (n : UInt64) : Integral (.ofWord n) := by
  have hlt := n.toNat_lt
  simp only [ofWord, Integral, IsWord]
  omega

/-! ## Hosts and settings -/

namespace Host

def members (h : Host) : List (String × Json) :=
  [("uuid", .string h.uuid), ("name", .string h.name), ("address", .string h.address)]

theorem fields_reads (h : Host) : fields.Reads h.members h :=
  (((Fields.reads_required (decodes_string h.uuid) rfl).map Host.mk).seq
    (Fields.reads_required (decodes_string h.name) rfl)).seq
      (Fields.reads_required (decodes_string h.address) rfl)

theorem areFields_members (h : Host) : AreFields fields.declared h.members :=
  ⟨by decide, .refl _⟩

theorem kept (h : Host) : Record.Kept h where
  decodes := decodes_record "struct HostInfo" h.fields_reads h.areFields_members
  integral := by simp [Record.toJson, Integral, IntegralMembers]
  shallow := by simp [Record.toJson, depth, depthMembers]

end Host

instance : LawfulRecord Host := ⟨Host.kept⟩

namespace Settings

def members (s : Settings) : List (String × Json) :=
  [("backup_target", .string s.backupTarget), ("longhorn_image", .string s.image)]

theorem fields_reads (s : Settings) : fields.Reads s.members s :=
  ((Fields.reads_required (decodes_string s.backupTarget) rfl).map Settings.mk).seq
    (Fields.reads_required (decodes_string s.image) rfl)

theorem areFields_members (s : Settings) : AreFields fields.declared s.members :=
  ⟨by decide, .refl _⟩

theorem kept (s : Settings) : Record.Kept s where
  decodes := decodes_record "struct SettingsInfo" s.fields_reads s.areFields_members
  integral := by simp [Record.toJson, Integral, IntegralMembers]
  shallow := by simp [Record.toJson, depth, depthMembers]

end Settings

instance : LawfulRecord Settings := ⟨Settings.kept⟩

/-! ## Instances -/

theorem Role.kept (r : Role) : Record.Kept r where
  decodes := decodes_enumeration (by cases r <;> decide)
  integral := by simp [Record.toJson, Integral]
  shallow := by simp [Record.toJson, depth]

instance : LawfulRecord Role := ⟨Role.kept⟩

namespace Instance

theorem fields_reads (i : Instance) : fields.Reads i.members i :=
  ((((((Fields.reads_required (decodes_string i.id) rfl).map Instance.mk).seq
    (Fields.reads_required i.role.kept.decodes rfl)).seq
      (Fields.reads_required (decodes_string i.name) rfl)).seq
        (Fields.reads_required (decodes_string i.hostId) rfl)).seq
          (Fields.reads_required (decodes_string i.address) rfl)).seq
            (Fields.reads_required (decodes_bool i.running) rfl)

theorem areFields_members (i : Instance) : AreFields fields.declared i.members :=
  ⟨by decide, .refl _⟩

theorem integralMembers (i : Instance) : IntegralMembers i.members := by
  simp [members, Record.toJson, Integral, IntegralMembers]

theorem depthMembers_members (i : Instance) : depthMembers i.members = 0 := by
  simp [members, Record.toJson, depth, depthMembers]

theorem kept (i : Instance) : Record.Kept i where
  decodes := decodes_record "struct InstanceInfo" i.fields_reads i.areFields_members
  integral := i.integralMembers
  shallow := by simp [Record.toJson, depth, depthMembers_members]

end Instance

instance : LawfulRecord Instance := ⟨Instance.kept⟩

namespace Controller

/-- A controller has no fields of its own. -/
theorem ownFields_reads (c : Controller) : (pure () : Fields Unit).Reads c.inst.members () :=
  Fields.reads_pure _ _

theorem kept (c : Controller) : Record.Kept c where
  decodes := (decodes_flattened "struct ControllerInfo" c.ownFields_reads c.inst.fields_reads
    c.inst.areFields_members.nodup (by decide)).map fun p => (⟨p.2⟩ : Controller)
  integral := c.inst.integralMembers
  shallow := c.inst.kept.shallow

end Controller

instance : LawfulRecord Controller := ⟨Controller.kept⟩

/-! ## Volumes -/

namespace Replica

def ownMembers (r : Replica) : List (String × Json) :=
  match r.badSince with
  | none => []
  | some t => [("bad_timestamp", .string t.text)]

def members (r : Replica) : List (String × Json) := r.inst.members ++ r.ownMembers

theorem toJson_eq (r : Replica) : Record.toJson r = .object r.members := rfl

theorem nodup_members (r : Replica) : (r.members.map Prod.fst).Nodup := by
  unfold members ownMembers
  cases r.badSince <;> simp [Instance.members]

theorem decodes_timestamp (t : Time.Timestamp) : Decodes timestamp (.string t.text) t := by
  intro c _
  simp [Doc.ofJson, timestamp, Lexeme.get, Lexeme.ok, Except.mapError, bind, Except.bind]

theorem ownFields_reads (r : Replica) : ownFields.Reads r.members r.badSince := by
  unfold members ownMembers
  cases r.badSince with
  | none => exact Fields.reads_absent rfl none
  | some t => exact Fields.reads_optional (decodes_option (decodes_timestamp t) (by simp)) rfl none

theorem instFields_reads (r : Replica) : Instance.fields.Reads r.members r.inst := by
  have hother : ∀ x ∈ Instance.fields.declared, (x.name == "bad_timestamp") = false := by decide
  refine r.inst.fields_reads.congr (agree_append fun x hx => ?_)
  unfold ownMembers
  cases r.badSince with
  | none => rfl
  | some t => rw [List.lookup_cons, hother x hx, List.lookup_nil]

theorem depth_toJson (r : Replica) : depth (Record.toJson r) = 1 := by
  have hown : depthMembers r.ownMembers = 0 := by
    unfold ownMembers
    cases r.badSince <;> simp [depth, depthMembers]
  rw [toJson_eq, depth, members, depthMembers_append, Instance.depthMembers_members, hown]
  rfl

theorem kept (r : Replica) : Record.Kept r where
  decodes := by
    exact (decodes_flattened "struct ReplicaInfo" r.ownFields_reads r.instFields_reads
      r.nodup_members (by decide)).map fun p => (⟨p.2, p.1⟩ : Replica)
  integral := by
    have hinst := integralMembers_iff.mp r.inst.integralMembers
    have hown : ∀ e ∈ r.ownMembers, Integral e.2 := by
      unfold ownMembers
      cases r.badSince <;> simp [Integral]
    rw [toJson_eq, Integral, members, integralMembers_iff]
    intro e he
    rcases List.mem_append.mp he with he | he
    · exact hinst e he
    · exact hown e he
  shallow := by
    rw [depth_toJson]
    decide

end Replica

instance : LawfulRecord Replica := ⟨Replica.kept⟩

namespace Volume

def replicasJson (v : Volume) : Json :=
  .object (v.replicas.entries.map fun e => (e.1, Record.toJson e.2))

theorem integral_replicasJson (v : Volume) : Integral v.replicasJson := by
  rw [replicasJson, Integral, integralMembers_iff]
  intro e he
  obtain ⟨r, -, rfl⟩ := List.mem_map.mp he
  exact r.2.kept.integral

theorem depth_replicasJson (v : Volume) : depth v.replicasJson ≤ 2 := by
  rw [replicasJson, depth]
  induction v.replicas.entries with
  | nil => simp [depthMembers]
  | cons e l ih =>
    simp only [List.map_cons, depthMembers, Replica.depth_toJson]
    omega

/-- The members of a volume, with some value for its replicas. -/
def membersWith (v : Volume) (replicas : Json) : List (String × Json) :=
  [("name", .string v.name), ("size", .ofWord v.size), ("longhorn_image", .string v.image),
    ("replicas", replicas)]

theorem toJson_eq (v : Volume) : Record.toJson v = .object (v.membersWith v.replicasJson) := rfl

theorem fields_reads (v : Volume) {replicas : Json}
    (h : Decodes (.sortedMap Record.decoder) replicas v.replicas) :
    fields.Reads (v.membersWith replicas) v :=
  ((((Fields.reads_required (decodes_string v.name) rfl).map Volume.mk).seq
    (Fields.reads_required (decodes_word v.size) rfl)).seq
      (Fields.reads_required (decodes_string v.image) rfl)).seq
        (Fields.reads_optional h rfl _)

theorem areFields_members (v : Volume) (replicas : Json) :
    AreFields fields.declared (v.membersWith replicas) :=
  ⟨by decide, .refl _⟩

theorem kept (v : Volume) : Record.Kept v where
  decodes := decodes_record "struct VolumeInfo"
    (v.fields_reads (decodes_sortedMap (fun r => (Replica.kept r).decodes) v.replicas))
    (v.areFields_members v.replicasJson)
  integral := by
    simp [toJson_eq, membersWith, Integral, IntegralMembers, integral_ofWord,
      integral_replicasJson]
  shallow := by
    have hreplicas := v.depth_replicasJson
    simp only [toJson_eq, membersWith, depth, depthMembers, ofWord]
    omega

end Volume

instance : LawfulRecord Volume := ⟨Volume.kept⟩

end HostAgent
