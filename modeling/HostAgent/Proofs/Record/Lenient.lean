import HostAgent.Proofs.Json.Lacking
import HostAgent.Proofs.Record.Normal

namespace HostAgent

/-!
# Records from other hands

Who writes the text of a record may put its members in another order, and may know of members that
are not known here. Such a text is read as the record itself. A text that lacks a member is only
read where the member has a value when it is left out.
-/

open Json

/-- Records are read alike from every text of their members in any order, with other members among
them, and never where one is missing that they cannot do without. -/
structure Record.Lenient (α : Type) [Record α] (s : Schema) (arrives : α → α → Prop) : Prop where
  rearranged : ∀ a b, arrives a b → ∀ j, Arranged s (Record.toJson a) j → depth j < 128 →
    ∀ t, IsText t j → Record.ofInput t = .ok b
  lacking : ∀ j, Lacks s j → ∀ t, IsText t j → ∃ r, Record.ofInput (α := α) t = .error r

theorem Record.lenient {α : Type} [Record α] {s : Schema} {arrives : α → α → Prop}
    (htakes : ∀ a b, arrives a b → TakesArranged Record.decoder s (Record.toJson a) b)
    (hrefuses : RefusesLacking (Record.decoder (α := α)) s) : Lenient α s arrives where
  rearranged a b hab j hj hdepth t ht := by
    rw [Record.ofInput, ht.ofInput]
    exact htakes a b hab j hj .ofText (Cursor.admits_ofText hdepth)
  lacking j hj t ht := by
    rw [Record.ofInput, ht.ofInput]
    cases hd : Record.decoder (α := α) .ofText (Doc.spelled j) with
    | error r => exact ⟨r, rfl⟩
    | ok a => exact absurd hd (hrefuses j hj .ofText a)

/-- A record of these members, all of them needed and none of them looked into. -/
def Json.Schema.plain (names : List String) : Schema := .record names names false fun _ => .whole

theorem Json.lacks_whole {α : Type} {f : Fields α} (k : String) (j : Json)
    (h : Lacks .whole j) : ∃ x, f.find? k = some x ∧ Refuses x.accepts (Doc.spelled j) :=
  h.elim

/-- A record whose members are not looked into is taken from texts of its arrangements if it is read
from its own members. -/
theorem Json.takesArranged_of_reads {α : Type} (title : String) {f : Fields α} {a : α}
    {m : List (String × Json)} {declared required : List String}
    (hdeclared : f.declared.map Field.name = declared) (hreads : f.Reads m a)
    (hfits : NumbersMembers Number.Fits m) (hm : AreFields f.declared m) :
    TakesArranged (record title f) (.record declared required false fun _ => .whole) (.object m)
      a :=
  takesArranged_record title hdeclared (hreads.arranges hfits fun _ _ => rfl) hm

/-- Records whose members are not looked into are read leniently if they are read from their own
members, each by the field of its name. -/
theorem Record.lenient_of_reads {α : Type} [Record α] [LawfulRecord α] {title : String}
    {f : Fields α} {members : α → List (String × Json)} {declared required : List String}
    (hdecoder : Record.decoder = record title f)
    (hjson : ∀ a, Record.toJson a = .object (members a)) (hreads : ∀ a, f.Reads (members a) a)
    (hm : ∀ a, AreFields f.declared (members a))
    (hdeclared : f.declared.map Field.name = declared) (hrequires : f.Requires required) :
    Lenient α (.record declared required false fun _ => .whole) Eq := by
  refine Record.lenient ?_ ?_
  · rintro a - rfl
    have hfits : Numbers Number.Fits (Record.toJson a) := (LawfulRecord.kept a).integral.fits
    rw [hjson] at hfits
    rw [hdecoder, hjson]
    exact takesArranged_of_reads title hdeclared (hreads a) hfits (hm a)
  · rw [hdecoder]
    exact refusesLacking_record title hrequires lacks_whole

/-! ## Hosts, settings and instances -/

namespace Host

def schema : Schema := .plain ["uuid", "name", "address"]

theorem requires_fields : fields.Requires ["uuid", "name", "address"] :=
  (((Fields.requires_required "uuid" _).map Host.mk).seq (Fields.requires_required "name" _)).seq
    (Fields.requires_required "address" _)

theorem lenient : Record.Lenient Host schema Eq :=
  Record.lenient_of_reads rfl (fun _ => rfl) fields_reads areFields_members rfl requires_fields

end Host

namespace Settings

def schema : Schema := .plain ["backup_target", "longhorn_image"]

theorem requires_fields : fields.Requires ["backup_target", "longhorn_image"] :=
  ((Fields.requires_required "backup_target" _).map Settings.mk).seq
    (Fields.requires_required "longhorn_image" _)

theorem lenient : Record.Lenient Settings schema Eq :=
  Record.lenient_of_reads rfl (fun _ => rfl) fields_reads areFields_members rfl requires_fields

end Settings

namespace Instance

def names : List String := ["id", "type", "name", "host_id", "address", "running"]

def schema : Schema := .plain names

theorem requires_fields : fields.Requires names :=
  ((((((Fields.requires_required "id" _).map Instance.mk).seq
    (Fields.requires_required "type" _)).seq (Fields.requires_required "name" _)).seq
      (Fields.requires_required "host_id" _)).seq (Fields.requires_required "address" _)).seq
        (Fields.requires_required "running" _)

theorem lenient : Record.Lenient Instance schema Eq :=
  Record.lenient_of_reads rfl (fun _ => rfl) fields_reads areFields_members rfl requires_fields

end Instance

namespace Controller

def schema : Schema := .record Instance.names Instance.names true fun _ => .whole

theorem lenient : Record.Lenient Controller schema Eq := by
  refine Record.lenient ?_ ?_
  · rintro c - rfl
    exact (takesArranged_flattened "struct ControllerInfo" rfl c.ownFields_reads
      c.inst.fields_reads c.kept.integral.fits c.inst.areFields_members.nodup
      (by decide)).map fun p => (⟨p.2⟩ : Controller)
  · exact (refusesLacking_flattened "struct ControllerInfo" Instance.requires_fields).map
      fun p => (⟨p.2⟩ : Controller)

end Controller

/-! ## Volumes -/

namespace Replica

def schema : Schema :=
  .record ("bad_timestamp" :: Instance.names) Instance.names true fun _ => .whole

theorem takesArranged (r : Replica) :
    TakesArranged (Record.decoder (α := Replica)) schema (Record.toJson r) r :=
  (takesArranged_flattened "struct ReplicaInfo" rfl r.ownFields_reads r.instFields_reads
    r.kept.integral.fits r.nodup_members (by decide)).map fun p => (⟨p.2, p.1⟩ : Replica)

theorem refusesLacking : RefusesLacking (Record.decoder (α := Replica)) schema :=
  (refusesLacking_flattened "struct ReplicaInfo" Instance.requires_fields).map
    fun p => (⟨p.2, p.1⟩ : Replica)

theorem lenient : Record.Lenient Replica schema Eq :=
  Record.lenient (fun a _ hab => hab ▸ a.takesArranged) refusesLacking

end Replica

namespace Volume

def within (name : String) : Schema :=
  if name = "replicas" then .table Replica.schema else .whole

def schema : Schema :=
  .record ["name", "size", "longhorn_image", "replicas"] ["name", "size", "longhorn_image"] false
    within

theorem takesArranged (v : Volume) :
    TakesArranged (Record.decoder (α := Volume)) schema (Record.toJson v) v := by
  have hreplicas : TakesArranged (.sortedMap Record.decoder) (.table Replica.schema)
      v.replicasJson v.replicas := takesArranged_sortedMap Replica.takesArranged v.replicas
  have hname := (decodes_string v.name).takesArranged trivial
  have hsize := (decodes_word v.size).takesArranged (integral_ofWord v.size).fits
  have himage := (decodes_string v.image).takesArranged trivial
  refine takesArranged_record "struct VolumeInfo" rfl ?_ (v.areFields_members v.replicasJson)
  exact ((((Fields.arranges_required hname rfl).map Volume.mk).seq
    (Fields.arranges_required hsize rfl)).seq (Fields.arranges_required himage rfl)).seq
      (Fields.arranges_optional hreplicas rfl _)

theorem refusesLacking : RefusesLacking (Record.decoder (α := Volume)) schema := by
  refine refusesLacking_record "struct VolumeInfo"
    ((((Fields.requires_required "name" _).map Volume.mk).seq
      (Fields.requires_required "size" _)).seq
        (Fields.requires_required "longhorn_image" _) |>.seq (Fields.requires_nil _)) ?_
  intro k j hlacks
  unfold within at hlacks
  split at hlacks
  next hk =>
    subst hk
    exact ⟨_, rfl, (refusesLacking_sortedMap Replica.refusesLacking j hlacks).accepting⟩
  next => exact hlacks.elim

theorem lenient : Record.Lenient Volume schema Eq :=
  Record.lenient (fun a _ hab => hab ▸ a.takesArranged) refusesLacking

end Volume

/-! ## Requests -/

namespace ControllerPayload

def schema : Schema :=
  .record ["instance_name", "volume_name", "longhorn_image", "replica_addresses"]
    ["instance_name", "volume_name", "longhorn_image"] false fun _ => .whole

theorem requires_fields : fields.Requires ["instance_name", "volume_name", "longhorn_image"] :=
  ((((Fields.requires_required "instance_name" _).map ControllerPayload.mk).seq
    (Fields.requires_required "volume_name" _)).seq
      (Fields.requires_required "longhorn_image" _)).seq (Fields.requires_nil _)

theorem lenient : Record.Lenient ControllerPayload schema Eq :=
  Record.lenient_of_reads rfl toJson_eq fields_reads areFields_members rfl requires_fields

end ControllerPayload

namespace ReplicaPayload

def schema : Schema := .plain ["instance_name", "volume_name", "volume_size", "longhorn_image"]

theorem requires_fields :
    fields.Requires ["instance_name", "volume_name", "volume_size", "longhorn_image"] :=
  ((((Fields.requires_required "instance_name" _).map ReplicaPayload.mk).seq
    (Fields.requires_required "volume_name" _)).seq (Fields.requires_required "volume_size" _)).seq
      (Fields.requires_required "longhorn_image" _)

theorem lenient : Record.Lenient ReplicaPayload schema Eq :=
  Record.lenient_of_reads rfl toJson_eq fields_reads areFields_members rfl requires_fields

end ReplicaPayload

namespace Target

def schema : Schema := .record ["id", "type", "host_id"] ["id", "type"] false fun _ => .whole

theorem takesArranged (t : Target) :
    TakesArranged (Record.decoder (α := Target)) schema (Record.toJson t) t :=
  takesArranged_of_reads "struct ScheduleInstance" rfl t.fields_reads t.kept.integral.fits
    t.areFields_members

theorem refusesLacking : RefusesLacking (Record.decoder (α := Target)) schema :=
  refusesLacking_record "struct ScheduleInstance"
    ((((Fields.requires_required "id" _).map Target.mk).seq
      (Fields.requires_required "type" _)).seq (Fields.requires_nil _)) lacks_whole

theorem lenient : Record.Lenient Target schema Eq :=
  Record.lenient (fun a _ hab => hab ▸ a.takesArranged) refusesLacking

end Target

namespace Envelope

def schema : Schema := .record ["orchestrator", "data"] ["orchestrator"] false fun _ => .whole

/-- Whether the integers of what is attached are those that values are made of. -/
def Fits (e : Envelope) : Prop := ∀ v, e.data = some v → Numbers Number.Fits v.json

/-- What an envelope is read as. -/
def ReadAs (e e' : Envelope) : Prop := e.Fits ∧ e' = e.normal

theorem takesArranged {e : Envelope} (h : e.Fits) :
    TakesArranged (Record.decoder (α := Envelope)) schema (Record.toJson e) e.normal := by
  have hfits : NumbersMembers Number.Fits e.members := by
    refine ⟨trivial, ?_⟩
    rw [dataMembers]
    cases hdata : e.data with
    | none => trivial
    | some v => exact ⟨h v hdata, trivial⟩
  exact takesArranged_of_reads "struct ScheduleData" rfl e.fields_reads_normal hfits
    e.areFields_members

theorem refusesLacking : RefusesLacking (Record.decoder (α := Envelope)) schema :=
  refusesLacking_record "struct ScheduleData"
    (((Fields.requires_required "orchestrator" _).map Envelope.mk).seq (Fields.requires_nil _))
    lacks_whole

theorem lenient : Record.Lenient Envelope schema ReadAs := by
  refine Record.lenient ?_ refusesLacking
  rintro e - ⟨h, rfl⟩
  exact takesArranged h

end Envelope

namespace Request

def within (name : String) : Schema :=
  if name = "instance" then Target.schema
  else if name = "data" then Envelope.schema
  else .whole

def schema : Schema :=
  .record ["action", "instance", "data"] ["action", "instance", "data"] false within

/-- What a request is read as. -/
def ReadAs (r r' : Request) : Prop := r.envelope.Fits ∧ r' = r.normal

theorem lenient : Record.Lenient Request schema ReadAs := by
  refine Record.lenient ?_ ?_
  · rintro r - ⟨h, rfl⟩
    have haction := r.action.decodes_normal.takesArranged trivial
    refine takesArranged_record "struct ScheduleRequest" rfl ?_ ⟨by decide, .refl _⟩
    exact (((Fields.arranges_required haction rfl).map Request.mk).seq
      (Fields.arranges_required r.target.takesArranged rfl)).seq
        (Fields.arranges_required (Envelope.takesArranged h) rfl)
  · refine refusesLacking_record "struct ScheduleRequest"
      ((((Fields.requires_required "action" _).map Request.mk).seq
        (Fields.requires_required "instance" _)).seq (Fields.requires_required "data" _)) ?_
    intro k j hlacks
    unfold within at hlacks
    split at hlacks
    next hk =>
      subst hk
      exact ⟨_, rfl, (Target.refusesLacking j hlacks).accepting⟩
    split at hlacks
    next hk =>
      subst hk
      exact ⟨_, rfl, (Envelope.refusesLacking j hlacks).accepting⟩
    next => exact hlacks.elim

end Request

/-! ## All records -/

theorem Json.isText_text {j : Json} (h : Numbers Number.Regained j) :
    IsText (inputOf j.text) j := by
  rw [inputOf, text, String.toList_ofList]
  exact isText_print h

namespace Record

/-- Whatever stands in them, records are read from every text of their members in any order, with
other members among them, and a text without a member that a record needs is not read. Compact texts
are such texts if the floating point numbers in them are read back. What is attached to a request
arrives, but for `null`, and so does its action, but for a tag that belongs to another one. -/
theorem all_lenient :
    (∀ j : Json, Numbers Number.Regained j → IsText (inputOf j.text) j) ∧
    (Lenient Host Host.schema Eq ∧ Lenient Settings Settings.schema Eq ∧
      Lenient Instance Instance.schema Eq ∧ Lenient Controller Controller.schema Eq ∧
        Lenient Replica Replica.schema Eq ∧ Lenient Volume Volume.schema Eq ∧
          Lenient ControllerPayload ControllerPayload.schema Eq ∧
            Lenient ReplicaPayload ReplicaPayload.schema Eq ∧ Lenient Target Target.schema Eq) ∧
    (Lenient Envelope Envelope.schema Envelope.ReadAs ∧
      ∀ e : Envelope, (∀ v, e.data = some v → v.json ≠ .null) → e.normal = e) ∧
    Lenient Request Request.schema Request.ReadAs ∧ ∀ r : Request, r.IsNormal → r.normal = r :=
  ⟨fun _ => isText_text,
    ⟨Host.lenient, Settings.lenient, Instance.lenient, Controller.lenient, Replica.lenient,
      Volume.lenient, ControllerPayload.lenient, ReplicaPayload.lenient, Target.lenient⟩,
    ⟨Envelope.lenient, fun _ => Envelope.normal_of_forall_ne⟩,
    Request.lenient, fun _ => Request.IsNormal.normal_eq⟩

/-- A replica, its members in another order, as written by one who weighs replicas. -/
def weightedReplica : Json :=
  .object [("running", .bool true), ("name", .string "vol-r-1"),
    ("weight", .number (.integer 1000000000000000000000000000000)), ("address", .string "10.0.0.2"),
    ("type", .string "replica"), ("host_id", .string "host-1"), ("id", .string "c-1")]

/-- A volume with this replica, as written by one to whom volumes have owners. -/
def ownedVolume : Json :=
  .object [("owner", .object [("shards", .array [.null])]),
    ("replicas", .object [("r-1", weightedReplica)]), ("size", .number (.integer 7)),
    ("name", .string "vol"), ("longhorn_image", .string "engine")]

/-- The text of such a volume is read as the volume, and one that does not say its size is not
read. -/
theorem all_lenient_volume :
    Record.ofString (Json.text ownedVolume) = .ok (⟨"vol", 7, "engine", .ofList [("r-1",
      .ofInstance ⟨"c-1", .replica, "vol-r-1", "host-1", "10.0.0.2", true⟩)]⟩ : Volume) ∧
    ∃ r, Record.ofString (α := Volume) (Json.text (.object [("name", .string "vol"),
      ("longhorn_image", .string "engine")])) = .error r := by
  obtain ⟨htext, ⟨-, -, -, -, -, hvolume, -⟩, -⟩ := all_lenient
  refine ⟨?_, ?_⟩
  · refine hvolume.rearranged _ _ rfl ownedVolume ?_ (by decide) _ (htext _ ?_)
    · have hweight : IsOther ("bad_timestamp" :: Instance.names) true
          ("weight", .number (.integer 1000000000000000000000000000000)) :=
        ⟨by decide, fun _ => ⟨.float ⟨0x46293E5939A08CEA⟩, by decide +kernel⟩⟩
      have howner : IsOther ["name", "size", "longhorn_image", "replicas"] false
          ("owner", .object [("shards", .array [.null])]) := ⟨by decide, nofun⟩
      have hreplica : Arranged Replica.schema (Record.toJson (Replica.ofInstance
          ⟨"c-1", .replica, "vol-r-1", "host-1", "10.0.0.2", true⟩)) weightedReplica :=
        ⟨_, _, rfl, rfl, .mk (List.forall₂_same.mpr fun _ _ => ⟨rfl, rfl⟩)
          (List.forall_mem_singleton.mpr hweight) (by decide)⟩
      have hmembers : [("owner", .object [("shards", .array [.null])]),
          ("replicas", .object [("r-1", weightedReplica)]), ("size", .number (.integer 7)),
          ("name", .string "vol"), ("longhorn_image", .string "engine")].Perm
          ([("name", .string "vol"), ("size", .number (.integer 7)),
            ("longhorn_image", .string "engine"),
            ("replicas", .object [("r-1", weightedReplica)])] ++
              [("owner", Json.object [("shards", .array [.null])])]) := by decide
      refine ⟨_, _, rfl, rfl, .mk ?_ (List.forall_mem_singleton.mpr howner) hmembers⟩
      refine .cons ⟨rfl, rfl⟩ (.cons ⟨rfl, rfl⟩ (.cons ⟨rfl, rfl⟩ (.cons ⟨rfl, ?_⟩ .nil)))
      exact ⟨_, _, rfl, rfl, .cons ⟨rfl, hreplica⟩ .nil⟩
    · simp [ownedVolume, weightedReplica, Numbers, NumbersMembers, NumbersItems, Number.Regained]
  · refine hvolume.lacking _ ⟨_, rfl, .inl ⟨"size", by decide, by decide⟩⟩ _ (htext _ ?_)
    exact ⟨trivial, trivial, trivial⟩

/-- A text of a record is read, but as another record. -/
def IsMistaken {α : Type} [Record α] (a : α) : Prop := ∃ b, Record.ofString (text a) = .ok b ∧ b ≠ a

/-- A replica, as written by one to whom numbers have no end. -/
def endlessReplica : Json :=
  .object (("x", .number (.integer (Nat.pow 10 400))) :: Instance.blank.members)

theorem refuses_endlessReplica :
    Refuses (Record.decoder (α := Replica)) (Doc.spelled endlessReplica) := by
  have hvalue : (integerLexeme (Nat.pow 10 400)).value = .error .outOfRange := by decide +kernel
  have hnumber : Refuses Decoder.anything (.number (integerLexeme (Nat.pow 10 400))) := by
    intro c j hj
    rw [Decoder.anything, Lexeme.get, hvalue] at hj
    cases hj
  have hother : isDeclared Replica.ownFields.declared "x" = false := by decide
  have hmem : ("x", Doc.number (integerLexeme (Nat.pow 10 400))) ∈
      spellings (("x", .number (.integer (Nat.pow 10 400))) :: Instance.blank.members) :=
    List.mem_cons_self
  rw [endlessReplica, Doc.spelled, spelledMembers_eq]
  exact (refuses_flattened_other "struct ReplicaInfo" hmem hother hnumber).map _

/-- Other members of a replica must be in range though replicas do not declare them. What is
attached to a request must not be `null`, nor a floating point number that is read as its neighbour,
and an action must not have the tag of another one. -/
theorem all_lenient_exceptions :
    (Arranged (.record ("bad_timestamp" :: Instance.names) Instance.names false fun _ => .whole)
        (Record.toJson (Replica.ofInstance .blank)) endlessReplica ∧
      depth endlessReplica < 128 ∧
      ∃ r, Record.ofString (α := Replica) (Json.text endlessReplica) = .error r) ∧
    IsMistaken (⟨"docker", some (Json.value .null)⟩ : Envelope) ∧
    IsMistaken (⟨"docker", some (Json.value (.number (.float ⟨0x3FF1C1F6B99688CD⟩)))⟩ : Envelope) ∧
    IsMistaken (⟨.unknown "start-instance", .blank, .empty "docker"⟩ : Request) := by
  have hnumbers : Numbers Number.Regained endlessReplica :=
    ⟨trivial, trivial, trivial, trivial, trivial, trivial, trivial, trivial⟩
  have hsendable : (⟨.unknown "start-instance", .blank, .empty "docker"⟩ : Request).IsSendable :=
    ⟨nofun, by decide⟩
  refine ⟨⟨?_, by decide, ?_⟩, ?_, ?_, ?_⟩
  · have hother : IsOther ("bad_timestamp" :: Instance.names) false
        ("x", .number (.integer (Nat.pow 10 400))) := ⟨by decide, nofun⟩
    refine ⟨_, _, rfl, rfl, .mk (List.forall₂_same.mpr fun _ _ => ⟨rfl, rfl⟩)
      (List.forall_mem_singleton.mpr hother) ?_⟩
    exact (List.perm_append_singleton _ _).symm
  · rw [Record.ofString, Decoder.ofString, (isText_text hnumbers).ofInput]
    cases hd : Record.decoder (α := Replica) .ofText (Doc.spelled endlessReplica) with
    | error r => exact ⟨r, rfl⟩
    | ok a => exact absurd hd (refuses_endlessReplica .ofText a)
  · exact ⟨.empty "docker", by decide +kernel, by decide⟩
  · exact ⟨⟨"docker", some (Json.value (.number (.float ⟨0x3FF1C1F6B99688CE⟩)))⟩,
      by decide +kernel, by decide⟩
  · exact ⟨_, hsendable.arrives.text, by decide⟩

end Record

end HostAgent
