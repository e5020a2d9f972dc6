import HostAgent.Proofs.Record.Faithful

namespace HostAgent

/-!
# What becomes of a request on its way

The text of a request gives the tag of its action and what is attached to it. A tag that was sent as
one without a meaning is read as the action that it belongs to, and an attached `null` is read as
nothing attached. Everything else arrives as it was sent, and so do tags that belong to no action.
-/

open Json

namespace Action

/-- The actions that have a meaning here. -/
def known : List Action :=
  [.createController, .createReplica, .startInstance, .stopInstance, .deleteInstance]

/-- The action that the tag of an action belongs to. -/
def normal : Action → Action
  | .unknown tag => (known.find? fun a => a.tag = tag).getD (.unknown tag)
  | a => a

theorem ofTag_of_known {a : Action} (h : a ∈ known) : ofTag a.tag = a := by
  simp only [known, List.mem_cons, List.not_mem_nil, or_false] at h
  rcases h with rfl | rfl | rfl | rfl | rfl <;> decide

theorem normal_of_known {a : Action} (h : a ∈ known) : (unknown a.tag).normal = a := by
  simp only [known, List.mem_cons, List.not_mem_nil, or_false] at h
  rcases h with rfl | rfl | rfl | rfl | rfl <;> decide

theorem ofTag_of_forall_ne {name : String} (h : ∀ a ∈ known, name ≠ a.tag) :
    ofTag name = .unknown name := by
  simp only [known, List.forall_mem_cons, tag] at h
  obtain ⟨h₁, h₂, h₃, h₄, h₅, -⟩ := h
  rw [ofTag, if_neg h₁, if_neg h₂, if_neg h₃, if_neg h₄, if_neg h₅]

theorem normal_of_forall_ne {a : Action} (h : ∀ b ∈ known, a ≠ .unknown b.tag) :
    a.normal = a := by
  cases a with
  | unknown name =>
    have hnone : (known.find? fun a => a.tag = name) = none := by
      rw [List.find?_eq_none]
      intro b hb htag
      exact h b hb (congrArg unknown (of_decide_eq_true htag).symm)
    rw [normal, hnone, Option.getD_none]
  | createController | createReplica | startInstance | stopInstance | deleteInstance => rfl

/-- A tag is read as the action that it belongs to. -/
theorem ofTag_tag (a : Action) : ofTag a.tag = a.normal := by
  cases a with
  | unknown name =>
    by_cases h : ∃ a ∈ known, name = a.tag
    · obtain ⟨a, ha, rfl⟩ := h
      rw [normal_of_known ha]
      exact ofTag_of_known ha
    · have hname : ∀ a ∈ known, name ≠ a.tag := fun a ha htag => h ⟨a, ha, htag⟩
      rw [normal_of_forall_ne fun a ha heq => hname a ha (unknown.inj heq)]
      exact ofTag_of_forall_ne hname
  | createController | createReplica | startInstance | stopInstance | deleteInstance => decide

theorem normal_of_tag_eq {a b : Action} (hb : b ∈ known) (h : a.tag = b.tag) : a.normal = b := by
  rw [← a.ofTag_tag, h]
  exact ofTag_of_known hb

/-- The payload of an action that needs nothing attached. -/
def bare? : Action → Option Payload
  | .startInstance => some .startInstance
  | .stopInstance => some .stopInstance
  | .deleteInstance => some .deleteInstance
  | .createController | .createReplica | .unknown _ => none

theorem mem_known_of_bare {a : Action} {p : Payload} (h : a.bare? = some p) : a ∈ known := by
  cases a with
  | unknown => cases h
  | createController | createReplica | startInstance | stopInstance | deleteInstance => decide

theorem decodes_normal (a : Action) :
    Decodes (Record.decoder (α := Action)) (Record.toJson a) a.normal := by
  rw [← a.ofTag_tag]
  exact (decodes_string a.tag).map ofTag

end Action

theorem Json.decodes_option_null {α : Type} (d : Decoder α) : Decodes d.option .null none :=
  fun _ _ => rfl

namespace Envelope

/-- Nothing is attached where `null` was. -/
def normal (e : Envelope) : Envelope := ⟨e.orchestrator, e.data.filter fun v => v.json ≠ .null⟩

variable {e : Envelope} {v : Value}

theorem normal_of_null (hv : e.data = some v) (hnull : v.json = .null) :
    e.normal = .empty e.orchestrator := by
  rw [normal, hv, Option.filter_some, if_neg (by simpa using hnull), empty]

theorem normal_of_forall_ne (h : ∀ v, e.data = some v → v.json ≠ .null) : e.normal = e := by
  obtain ⟨orchestrator, data⟩ := e
  cases data with
  | none => rfl
  | some v => rw [normal, Option.filter_some, if_pos (by simpa using h v rfl)]

theorem fields_reads_normal (e : Envelope) : fields.Reads e.members e.normal := by
  obtain ⟨orchestrator, data⟩ := e
  cases data with
  | none =>
    exact ((Fields.reads_required (decodes_string orchestrator) rfl).map Envelope.mk).seq
      (Fields.reads_absent rfl none)
  | some v =>
    by_cases hnull : v.json = .null
    · have hdata : (members ⟨orchestrator, some v⟩).lookup "data" = some .null :=
        congrArg some hnull
      rw [normal_of_null rfl hnull]
      exact ((Fields.reads_required (decodes_string orchestrator) rfl).map Envelope.mk).seq
        (Fields.reads_optional (decodes_option_null .value) hdata none)
    · have hne : ∀ w, some v = some w → w.json ≠ .null := by
        rintro w ⟨⟩
        exact hnull
      rw [normal_of_forall_ne hne]
      exact ((Fields.reads_required (decodes_string orchestrator) rfl).map Envelope.mk).seq
        (Fields.reads_optional (decodes_option (decodes_value v) hnull) rfl none)

theorem decodes_normal (e : Envelope) :
    Decodes (Record.decoder (α := Envelope)) (Record.toJson e) e.normal :=
  decodes_record "struct ScheduleData" e.fields_reads_normal e.areFields_members

end Envelope

theorem Json.canonical_ne_null {j : Json} (h : j ≠ .null) : Json.canonical j ≠ .null := by
  cases j with
  | null => exact absurd rfl h
  | bool | number | string | array | object => simp [Json.canonical]

namespace Request

def normal (r : Request) : Request := ⟨r.action.normal, r.target, r.envelope.normal⟩

/-- A request that neither names an action by its tag alone nor has `null` attached. -/
structure IsNormal (r : Request) : Prop where
  action : ∀ a ∈ Action.known, r.action ≠ .unknown a.tag
  data : ∀ v, r.envelope.data = some v → v.json ≠ .null

/-- A request of which a text can be made: what is attached has no number but the integers that
texts keep, and is not nested more deeply than texts may be. -/
structure IsSendable (r : Request) : Prop where
  integral : ∀ v, r.envelope.data = some v → Integral v.json
  shallow : depth (Record.toJson r) < 128

/-- What is different about a request after it was sent, and what is not. -/
structure Normalizes (r r' : Request) : Prop where
  target : r'.target = r.target
  orchestrator : r'.envelope.orchestrator = r.envelope.orchestrator
  named : ∀ a ∈ Action.known, r.action = .unknown a.tag → r'.action = a
  action : (∀ a ∈ Action.known, r.action ≠ .unknown a.tag) → r'.action = r.action
  null : ∀ v, r.envelope.data = some v → v.json = .null → r'.envelope.data = none
  data : (∀ v, r.envelope.data = some v → v.json ≠ .null) → r'.envelope.data = r.envelope.data

/-- The text of a request is read as another one, and so are the octets of the text. -/
structure Arrives (r r' : Request) : Prop where
  text : Record.ofString (Record.text r) = .ok r'
  octets : Record.ofInput (Text.Utf8.symbols (Text.Utf8.encode (Record.text r))) = .ok r'

variable {r : Request}

theorem normalizes_normal (r : Request) : Normalizes r r.normal where
  target := rfl
  orchestrator := rfl
  named a ha h := by
    rw [normal, h]
    exact Action.normal_of_known ha
  action h := Action.normal_of_forall_ne h
  null v hv hnull := by
    rw [normal, Envelope.normal_of_null hv hnull, Envelope.empty]
  data h := congrArg Envelope.data (Envelope.normal_of_forall_ne h)

theorem IsNormal.normal_eq (h : r.IsNormal) : r.normal = r := by
  rw [normal, Action.normal_of_forall_ne h.action, Envelope.normal_of_forall_ne h.data]

theorem decodes_normal (r : Request) :
    Decodes (Record.decoder (α := Request)) (Record.toJson r) r.normal := by
  refine decodes_record "struct ScheduleRequest"
    ((((Fields.reads_required r.action.decodes_normal rfl).map Request.mk).seq
      (Fields.reads_required r.target.kept.decodes rfl)).seq
        (Fields.reads_required r.envelope.decodes_normal rfl)) ?_
  exact ⟨by decide, .refl _⟩

theorem IsSendable.integral_toJson (h : r.IsSendable) : Integral (Record.toJson r) := by
  obtain ⟨action, target, orchestrator, data⟩ := r
  refine ⟨trivial, target.kept.integral, ?_, trivial⟩
  cases data with
  | none => exact ⟨trivial, trivial⟩
  | some v => exact ⟨trivial, h.integral v rfl, trivial⟩

theorem IsSendable.arrives (h : r.IsSendable) : Arrives r r.normal := by
  have hinput := Record.ofInput_text_of_decodes r.decodes_normal h.integral_toJson h.shallow
  refine ⟨hinput, ?_⟩
  rwa [Text.Utf8.symbols_encode]

section WithPayload

variable {β : Type} [Record β] {action : Action} {target : Target} {orchestrator : String} {b : β}

theorem attached_withPayload [FreeRecord β] :
    (⟨action, target, .withPayload orchestrator b⟩ : Request).attached = .ok b := by
  change (Record.ofJson (Json.value (Record.toJson b)).json).mapError _ = _
  rw [Record.ofJson_value]
  rfl

theorem isSendable_withPayload [LawfulRecord β] (hdepth : depth (Record.toJson b) ≤ 2) :
    (⟨action, target, .withPayload orchestrator b⟩ : Request).IsSendable where
  integral := by
    intro v hv
    obtain rfl : Json.value (Record.toJson b) = v := Option.some.inj hv
    exact integral_canonical _ (LawfulRecord.kept b).integral
  shallow := by
    have hcanonical := depth_canonical_le (Record.toJson b)
    simp only [Record.toJson, Envelope.withPayload, Json.value, depth, depthMembers]
    omega

theorem data_withPayload_ne_null (hnull : Record.toJson b ≠ .null) :
    ∀ v, (Envelope.withPayload orchestrator b).data = some v → v.json ≠ .null := by
  intro v hv
  obtain rfl : Json.value (Record.toJson b) = v := Option.some.inj hv
  exact Json.canonical_ne_null hnull

theorem isPlain_withPayload [LawfulRecord β] (haction : Action.ofTag action.tag = action)
    (hnull : Record.toJson b ≠ .null) (hdepth : depth (Record.toJson b) ≤ 2) :
    (⟨action, target, .withPayload orchestrator b⟩ : Request).IsPlain where
  action := haction
  envelope v hv :=
    ⟨(isSendable_withPayload hdepth).integral v hv, data_withPayload_ne_null hnull v hv⟩
  shallow := (isSendable_withPayload hdepth).shallow

/-- What was attached to a request for an action is attached to the request for it that arrives. -/
theorem arrives_withPayload [LawfulRecord β] {b : β} {a : Action} (ha : a ∈ Action.known)
    (htag : action.tag = a.tag) (hnull : Record.toJson b ≠ .null)
    (hdepth : depth (Record.toJson b) ≤ 2) :
    Arrives ⟨action, target, .withPayload orchestrator b⟩
      ⟨a, target, .withPayload orchestrator b⟩ := by
  have hsendable : (⟨action, target, .withPayload orchestrator b⟩ : Request).IsSendable :=
    isSendable_withPayload hdepth
  have harrives := hsendable.arrives
  rw [normal, Action.normal_of_tag_eq ha htag,
    Envelope.normal_of_forall_ne (data_withPayload_ne_null hnull)] at harrives
  exact harrives

end WithPayload

/-! ## Payloads of requests that arrive -/

theorem depth_controllerPayload (p : ControllerPayload) : depth (Record.toJson p) ≤ 2 := by
  simp [ControllerPayload.toJson_eq, ControllerPayload.members, strings, depth, depthMembers,
    depthItems_strings]

theorem depth_replicaPayload (p : ReplicaPayload) : depth (Record.toJson p) ≤ 2 := by
  simp [ReplicaPayload.toJson_eq, ReplicaPayload.members, ofWord, depth, depthMembers]

theorem arrives_controllerPayload {action : Action} (target : Target) (orchestrator : String)
    (p : ControllerPayload) (htag : action.tag = Action.createController.tag) :
    ∃ r', Arrives ⟨action, target, .withPayload orchestrator p⟩ r' ∧
      r'.payload = .ok (.createController p) := by
  refine ⟨_, arrives_withPayload (by decide) htag nofun (depth_controllerPayload p), ?_⟩
  rw [payload, attached_withPayload, Except.map]

theorem arrives_replicaPayload {action : Action} (target : Target) (orchestrator : String)
    (p : ReplicaPayload) (htag : action.tag = Action.createReplica.tag) :
    ∃ r', Arrives ⟨action, target, .withPayload orchestrator p⟩ r' ∧
      r'.payload = .ok (.createReplica p) := by
  refine ⟨_, arrives_withPayload (by decide) htag nofun (depth_replicaPayload p), ?_⟩
  rw [payload, attached_withPayload, Except.map]

theorem payload_of_bare {a : Action} {p : Payload} (ha : a.bare? = some p) (hr : r.action = a) :
    r.payload = .ok p := by
  rw [payload, hr]
  cases a <;> cases ha <;> rfl

/-- A request arrives as it was sent, except that a tag is understood as its action and an attached
`null` as nothing. A payload arrives with a request that is made with it, whether the action was
given by its tag or not; a payload is not touched where a request is not; and actions on an instance
that exists have the payload that they need whatever is attached to them. -/
theorem sent_normalizes :
    (∀ r : Request, r.IsSendable → ∃ r', r.Arrives r' ∧ r.Normalizes r' ∧
      (r.IsNormal → r' = r ∧ r'.payload = r.payload) ∧
      ∀ a p, a.bare? = some p →
        (r.action = a → r.payload = .ok p) ∧ (r.action.tag = a.tag → r'.payload = .ok p)) ∧
    (∀ action target orchestrator (p : ControllerPayload),
      action.tag = Action.createController.tag →
        ∃ r', Arrives ⟨action, target, .withPayload orchestrator p⟩ r' ∧
          r'.payload = .ok (.createController p)) ∧
    ∀ action target orchestrator (p : ReplicaPayload),
      action.tag = Action.createReplica.tag →
        ∃ r', Arrives ⟨action, target, .withPayload orchestrator p⟩ r' ∧
          r'.payload = .ok (.createReplica p) := by
  refine ⟨fun r h => ⟨r.normal, h.arrives, r.normalizes_normal, fun hnormal => ?_, ?_⟩,
    fun _ => arrives_controllerPayload, fun _ => arrives_replicaPayload⟩
  · rw [hnormal.normal_eq]
    exact ⟨rfl, rfl⟩
  · intro a p ha
    refine ⟨payload_of_bare ha, fun htag => payload_of_bare ha ?_⟩
    exact Action.normal_of_tag_eq (Action.mem_known_of_bare ha) htag

/-- A request to start an instance by the tag of the action, with `null` attached, and a request
with a payload for a controller. -/
theorem sent_normalizes_tagged :
    (∃ r', Arrives ⟨.unknown "start-instance", ⟨"vol-r-1", .replica, ""⟩,
        ⟨"docker", some (Json.value .null)⟩⟩ r' ∧
      r'.action = .startInstance ∧ r'.envelope.data = none ∧ r'.payload = .ok .startInstance) ∧
    ∃ r', Arrives ⟨.unknown "create-controller", ⟨"vol-c", .controller, "host-1"⟩,
        .withPayload "docker" (⟨"vol-c", "vol", "engine", ["tcp://10.0.0.2:9502"]⟩ :
          ControllerPayload)⟩ r' ∧
      r'.payload = .ok (.createController ⟨"vol-c", "vol", "engine", ["tcp://10.0.0.2:9502"]⟩) := by
  obtain ⟨hsent, hcontroller, -⟩ := sent_normalizes
  refine ⟨?_, hcontroller _ _ _ _ rfl⟩
  obtain ⟨r', harrives, hnormal, -, hpayload⟩ := hsent ⟨.unknown "start-instance",
    ⟨"vol-r-1", .replica, ""⟩, ⟨"docker", some (Json.value .null)⟩⟩
    ⟨fun v hv => by cases hv; trivial, by decide⟩
  exact ⟨r', harrives, hnormal.named .startInstance (by decide) rfl, hnormal.null _ rfl rfl,
    (hpayload .startInstance .startInstance rfl).2 rfl⟩

end Request

end HostAgent
