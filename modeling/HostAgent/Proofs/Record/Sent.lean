import HostAgent.Error
import HostAgent.Proofs.Json.Canonical
import HostAgent.Proofs.Record.Kept
import HostAgent.Record.Request

namespace HostAgent

/-!
# What agents send each other

Reports of errors are kept by their texts whatever they say. Requests are kept where the tag of the
action is that of the action, and what is attached has only integers for numbers and is not `null`,
which reads as nothing attached.
-/

open Json

/-! ## Reports of errors -/

theorem ErrorKind.kept (k : ErrorKind) : Record.Kept k where
  decodes := decodes_enumeration (by cases k <;> decide)
  integral := by simp [Record.toJson, Integral]
  shallow := by simp [Record.toJson, depth]

instance : LawfulRecord ErrorKind := ⟨ErrorKind.kept⟩

namespace ErrorBody

def members (b : ErrorBody) : List (String × Json) :=
  [("code", Record.toJson b.code), ("message", .string b.message)]

theorem fields_reads (b : ErrorBody) : fields.Reads b.members b :=
  ((Fields.reads_required b.code.kept.decodes rfl).map ErrorBody.mk).seq
    (Fields.reads_required (decodes_string b.message) rfl)

theorem areFields_members (b : ErrorBody) : AreFields fields.declared b.members :=
  ⟨by decide, .refl _⟩

theorem kept (b : ErrorBody) : Record.Kept b where
  decodes := decodes_record "struct ErrorBody" b.fields_reads b.areFields_members
  integral := by simp [Record.toJson, Integral, IntegralMembers]
  shallow := by simp [Record.toJson, depth, depthMembers]

end ErrorBody

instance : LawfulRecord ErrorBody := ⟨ErrorBody.kept⟩

/-! ## Payloads -/

namespace Json

theorem integralItems_strings (l : List String) : IntegralItems (l.map .string) := by
  induction l with
  | nil => trivial
  | cons s l ih => exact ⟨trivial, ih⟩

theorem depthItems_strings (l : List String) : depthItems (l.map .string) = 0 := by
  induction l with
  | nil => rfl
  | cons s l ih => simp [depthItems, depth, ih]

end Json

namespace ControllerPayload

def members (p : ControllerPayload) : List (String × Json) :=
  [("instance_name", .string p.instanceName), ("volume_name", .string p.volumeName),
    ("longhorn_image", .string p.image), ("replica_addresses", .strings p.replicaAddresses)]

theorem toJson_eq (p : ControllerPayload) : Record.toJson p = .object p.members := rfl

theorem fields_reads (p : ControllerPayload) : fields.Reads p.members p :=
  ((((Fields.reads_required (decodes_string p.instanceName) rfl).map ControllerPayload.mk).seq
    (Fields.reads_required (decodes_string p.volumeName) rfl)).seq
      (Fields.reads_required (decodes_string p.image) rfl)).seq
        (Fields.reads_optional (decodes_list decodes_string p.replicaAddresses) rfl _)

theorem areFields_members (p : ControllerPayload) : AreFields fields.declared p.members :=
  ⟨by decide, .refl _⟩

theorem kept (p : ControllerPayload) : Record.Kept p where
  decodes := decodes_record "struct CreateControllerPayload" p.fields_reads p.areFields_members
  integral := by
    simp [toJson_eq, members, strings, Integral, IntegralMembers, integralItems_strings]
  shallow := by simp [toJson_eq, members, strings, depth, depthMembers, depthItems_strings]

end ControllerPayload

instance : LawfulRecord ControllerPayload := ⟨ControllerPayload.kept⟩

namespace ReplicaPayload

def members (p : ReplicaPayload) : List (String × Json) :=
  [("instance_name", .string p.instanceName), ("volume_name", .string p.volumeName),
    ("volume_size", .ofWord p.volumeSize), ("longhorn_image", .string p.image)]

theorem toJson_eq (p : ReplicaPayload) : Record.toJson p = .object p.members := rfl

theorem fields_reads (p : ReplicaPayload) : fields.Reads p.members p :=
  ((((Fields.reads_required (decodes_string p.instanceName) rfl).map ReplicaPayload.mk).seq
    (Fields.reads_required (decodes_string p.volumeName) rfl)).seq
      (Fields.reads_required (decodes_word p.volumeSize) rfl)).seq
        (Fields.reads_required (decodes_string p.image) rfl)

theorem areFields_members (p : ReplicaPayload) : AreFields fields.declared p.members :=
  ⟨by decide, .refl _⟩

theorem kept (p : ReplicaPayload) : Record.Kept p where
  decodes := decodes_record "struct CreateReplicaPayload" p.fields_reads p.areFields_members
  integral := by simp [toJson_eq, members, Integral, IntegralMembers, integral_ofWord]
  shallow := by simp [toJson_eq, members, ofWord, depth, depthMembers]

end ReplicaPayload

instance : LawfulRecord ReplicaPayload := ⟨ReplicaPayload.kept⟩

/-! ## Requests -/

namespace Target

def members (t : Target) : List (String × Json) :=
  [("id", .string t.id), ("type", Record.toJson t.role), ("host_id", .string t.hostId)]

theorem fields_reads (t : Target) : fields.Reads t.members t :=
  (((Fields.reads_required (decodes_string t.id) rfl).map Target.mk).seq
    (Fields.reads_required t.role.kept.decodes rfl)).seq
      (Fields.reads_optional (decodes_string t.hostId) rfl _)

theorem areFields_members (t : Target) : AreFields fields.declared t.members :=
  ⟨by decide, .refl _⟩

theorem kept (t : Target) : Record.Kept t where
  decodes := decodes_record "struct ScheduleInstance" t.fields_reads t.areFields_members
  integral := by simp [Record.toJson, Integral, IntegralMembers]
  shallow := by simp [Record.toJson, depth, depthMembers]

end Target

instance : LawfulRecord Target := ⟨Target.kept⟩

namespace Envelope

/-- Whether what is attached survives as a text. -/
def IsPlain (e : Envelope) : Prop := ∀ v, e.data = some v → Integral v.json ∧ v.json ≠ .null

def dataMembers (e : Envelope) : List (String × Json) :=
  match e.data with
  | none => []
  | some v => [("data", v.json)]

def members (e : Envelope) : List (String × Json) :=
  ("orchestrator", .string e.orchestrator) :: e.dataMembers

theorem toJson_eq (e : Envelope) : Record.toJson e = .object e.members := rfl

theorem areFields_members (e : Envelope) : AreFields fields.declared e.members := by
  obtain ⟨orchestrator, data⟩ := e
  cases data with
  | none => exact ⟨by decide, .cons_cons _ (List.nil_sublist _)⟩
  | some v => exact ⟨by decide, .refl _⟩

theorem decodes (e : Envelope) (h : e.IsPlain) :
    Decodes (Record.decoder (α := Envelope)) (Record.toJson e) e := by
  refine decodes_record "struct ScheduleData" ?_ e.areFields_members
  obtain ⟨orchestrator, data⟩ := e
  cases data with
  | none =>
    exact ((Fields.reads_required (decodes_string orchestrator) rfl).map Envelope.mk).seq
      (Fields.reads_absent rfl none)
  | some v =>
    exact ((Fields.reads_required (decodes_string orchestrator) rfl).map Envelope.mk).seq
      (Fields.reads_optional (decodes_option (decodes_value v) (h v rfl).2) rfl none)

theorem integral (e : Envelope) (h : e.IsPlain) : Integral (Record.toJson e) := by
  obtain ⟨orchestrator, data⟩ := e
  cases data with
  | none => simp [toJson_eq, members, dataMembers, Integral, IntegralMembers]
  | some v => simp [toJson_eq, members, dataMembers, Integral, IntegralMembers, (h v rfl).1]

end Envelope

theorem Action.decodes {a : Action} (h : Action.ofTag a.tag = a) :
    Decodes (Record.decoder (α := Action)) (Record.toJson a) a := by
  have htag := (decodes_string a.tag).map Action.ofTag
  rw [h] at htag
  exact htag

namespace Request

/-- Whether a request can be told from its text. -/
structure IsPlain (r : Request) : Prop where
  action : Action.ofTag r.action.tag = r.action
  envelope : r.envelope.IsPlain
  shallow : depth (Record.toJson r) < 128

theorem IsPlain.kept {r : Request} (h : r.IsPlain) : Record.Kept r where
  decodes := by
    refine decodes_record "struct ScheduleRequest"
      ((((Fields.reads_required (Action.decodes h.action) rfl).map Request.mk).seq
        (Fields.reads_required r.target.kept.decodes rfl)).seq
          (Fields.reads_required (r.envelope.decodes h.envelope) rfl)) ?_
    exact ⟨by decide, .refl _⟩
  integral := by
    refine ⟨?_, r.target.kept.integral, r.envelope.integral h.envelope, ?_⟩ <;> trivial
  shallow := h.shallow

end Request

end HostAgent
