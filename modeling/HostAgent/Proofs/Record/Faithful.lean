import HostAgent.Proofs.Record.Sent

namespace HostAgent

/-!
# Records that every form gives back

A record comes back from its text, from the octets of its text, and from the value that it is
encoded as, also when the names of all objects of the value were brought into order, as they are in
free values. So texts of different records differ, and decoding a text and encoding the result gives
the text again.
-/

/-- Records that free values give back. -/
class FreeRecord (α : Type) [Record α] : Prop where
  decodes : ∀ a : α, Json.Decodes Record.decoder (Json.canonical (Record.toJson a)) a

open Json

namespace Json

@[simp] theorem canonical_string (s : String) : canonical (.string s) = .string s := by
  rw [canonical]
  rintro l ⟨⟩
  rintro l ⟨⟩

@[simp] theorem canonical_strings (l : List String) : canonical (.strings l) = .strings l := by
  have hitems : canonicalItems (l.map .string) = l.map .string := by
    induction l with
    | nil => rfl
    | cons s l ih => rw [List.map_cons, canonicalItems, canonical_string, ih]
  rw [strings, canonical, hitems]

/-- A record whose members are in canonical form is decoded also if they are brought into order. -/
theorem decodes_canonical_of_fixed {α : Type} {f : Fields α} {m : List (String × Json)} {a : α}
    (title : String) (h : f.Reads m a) (hm : AreFields f.declared m)
    (hfixed : canonicalValues m = m) : Decodes (record title f) (canonical (.object m)) a :=
  decodes_canonical_record title (hfixed.symm ▸ h) hm.nodup

end Json

instance : FreeRecord Host where
  decodes h := decodes_canonical_of_fixed _ h.fields_reads h.areFields_members
    (by simp [canonicalValues])

instance : FreeRecord Settings where
  decodes s := decodes_canonical_of_fixed _ s.fields_reads s.areFields_members
    (by simp [canonicalValues])

instance : FreeRecord ErrorBody where
  decodes b := decodes_canonical_of_fixed _ b.fields_reads b.areFields_members
    (by simp [canonicalValues, Record.toJson])

instance : FreeRecord ControllerPayload where
  decodes p := decodes_canonical_of_fixed _ p.fields_reads p.areFields_members
    (by simp [canonicalValues])

instance : FreeRecord ReplicaPayload where
  decodes p := decodes_canonical_of_fixed _ p.fields_reads p.areFields_members
    (by simp [canonicalValues, ofWord, canonical])

theorem Instance.canonicalValues_members (i : Instance) :
    canonicalValues i.members = i.members := by
  simp [canonicalValues, Instance.members, Record.toJson, canonical]

instance : FreeRecord Instance where
  decodes i := decodes_canonical_of_fixed _ i.fields_reads i.areFields_members
    i.canonicalValues_members

instance : FreeRecord Controller where
  decodes c := by
    refine (decodes_canonical_flattened "struct ControllerInfo" (Fields.reads_pure _ ()) ?_
      c.inst.areFields_members.nodup (by decide)).map fun p => (⟨p.2⟩ : Controller)
    rw [c.inst.canonicalValues_members]
    exact c.inst.fields_reads

theorem Replica.canonicalValues_members (r : Replica) : canonicalValues r.members = r.members := by
  have hinst := r.inst.canonicalValues_members
  have hown : canonicalValues r.ownMembers = r.ownMembers := by
    unfold Replica.ownMembers
    cases r.badSince <;> simp [canonicalValues]
  rw [canonicalValues] at hinst hown ⊢
  rw [Replica.members, List.map_append, hinst, hown]

instance : FreeRecord Replica where
  decodes r := by
    refine (decodes_canonical_flattened "struct ReplicaInfo" ?_ ?_ r.nodup_members
      (by decide)).map fun p => (⟨p.2, p.1⟩ : Replica)
    · rw [r.canonicalValues_members]
      exact r.ownFields_reads
    · rw [r.canonicalValues_members]
      exact r.instFields_reads

namespace Volume

/-- The replicas of a volume stand in order already. -/
theorem canonical_replicasJson (v : Volume) : canonical v.replicasJson =
    .object (v.replicas.entries.map fun e => (e.1, canonical (Record.toJson e.2))) := by
  have hsorted : Ascending (v.replicas.entries.map fun e => (e.1, Record.toJson e.2)) :=
    List.pairwise_map.mpr v.replicas.sorted
  rw [replicasJson, canonical_object_of_ascending hsorted, canonicalValues, List.map_map]
  rfl

theorem canonicalValues_membersWith (v : Volume) (replicas : Json) :
    canonicalValues (v.membersWith replicas) = v.membersWith (canonical replicas) := by
  simp [canonicalValues, membersWith, ofWord, canonical]

end Volume

instance : FreeRecord Volume where
  decodes v := by
    rw [v.toJson_eq]
    refine decodes_canonical_record "struct VolumeInfo" ?_ (v.areFields_members _).nodup
    rw [v.canonicalValues_membersWith, v.canonical_replicasJson]
    exact v.fields_reads (decodes_sortedMap (FreeRecord.decodes (α := Replica)) v.replicas)

namespace Record

variable {α : Type} [Record α]

theorem ofJson_value [FreeRecord α] (a : α) :
    Record.ofJson (Json.value (Record.toJson a)).json = .ok a :=
  (FreeRecord.decodes a).ofJson

/-- The text of a record says the value that the record is encoded as. -/
theorem Kept.value_ofString {a : α} (h : Kept a) :
    Decoder.value.ofString (Record.text a) = .ok (Json.value (Record.toJson a)) := by
  have hvalue : Decodes Decoder.value (Record.toJson a) (Json.value (Record.toJson a)) := by
    intro c hc
    rw [Decoder.value, anything_ofJson _ c hc]
    rfl
  change Decoder.value.ofInput ((Record.text a).toList.map some) = _
  rw [Record.text, Json.text, String.toList_ofList]
  exact ofInput_print h.integral (hvalue .ofText (Cursor.admits_ofText h.shallow))

/-- What every form of a record gives back, for all records of a type. -/
structure Faithful (α : Type) [Record α] : Prop where
  ofText : ∀ a : α, Record.ofString (Record.text a) = .ok a
  ofOctets : ∀ a : α,
    Record.ofInput (Text.Utf8.symbols (Text.Utf8.encode (Record.text a))) = .ok a
  ofValue : ∀ a : α, Record.ofJson (Json.value (Record.toJson a)).json = .ok a
  throughValue : ∀ a : α, ∃ v, Decoder.value.ofString (Record.text a) = .ok v ∧
    Record.ofJson v.json = .ok a
  distinct : ∀ a b : α, a ≠ b → Record.text a ≠ Record.text b
  stable : ∀ a b : α, Record.ofString (Record.text a) = .ok b →
    Text.Utf8.encode (Record.text b) = Text.Utf8.encode (Record.text a)

theorem faithful [LawfulRecord α] [FreeRecord α] : Faithful α where
  ofText := ofString_text
  ofOctets a := (LawfulRecord.kept a).ofInput_encode
  ofValue := ofJson_value
  throughValue a := ⟨_, (LawfulRecord.kept a).value_ofString, ofJson_value a⟩
  distinct a b hab htext := hab (text_injective htext)
  stable a b h := by
    rw [ofString_text] at h
    cases h
    rfl

/-- Whatever their strings, sizes, replicas and moments are, records come back from every form, and
their texts tell them apart. -/
theorem all_faithful :
    Faithful Host ∧ Faithful Settings ∧ Faithful Instance ∧ Faithful Controller ∧
      Faithful Replica ∧ Faithful Volume ∧ Faithful ControllerPayload ∧ Faithful ReplicaPayload ∧
        Faithful ErrorBody :=
  ⟨faithful, faithful, faithful, faithful, faithful, faithful, faithful, faithful, faithful⟩

end Record

end HostAgent
