import HostAgent.Proofs.Container.Names
import HostAgent.Proofs.Json.Canonical

namespace HostAgent.Container.Daemon

/-!
# What a creation says of its container

The body of a creation is the text of an object, and the specification is read back from it, except
for what stands elsewhere or means nothing: the name, and in lists that only name things the order
and how often one is named. Such a list is the set of the names of an object, which is left out when
it is empty. Two specifications have one body exactly when they differ in nothing else.
-/

open Json (Decoder Integral IntegralItems IntegralMembers depth depthItems depthMembers
  integralMembers_iff depthMembers_le_iff)

/-- Octets are those of a text that reads as a value. -/
def Says (octets : Http.Body) (j : Json) : Prop :=
  Decoder.ofInput Decoder.anything (Text.Utf8.symbols octets) = .ok j

/-- How a port stands in a body. -/
def portName (p : UInt16) : String := s!"{p.toNat}/tcp"

/-- The names of an object are those of a list, and there is nothing under them. -/
structure NamesAll (m : List (String × Json)) (l : List String) : Prop where
  once : (m.map Prod.fst).Nodup
  mem_iff : ∀ n, n ∈ m.map Prod.fst ↔ n ∈ l
  empty : ∀ e ∈ m, e.2 = .object []

/-- A member names all of a list, or is left out since there is nothing to name. -/
structure Lists (member : Option Json) (l : List String) : Prop where
  absent : member = none ↔ l = []
  present : ∀ j, member = some j → ∃ m, j = .object m ∧ NamesAll m l

structure Describes (m : List (String × Json)) (spec : Spec) : Prop where
  once : (m.map Prod.fst).Nodup
  known : ∀ n ∈ m.map Prod.fst, n ∈ ["Image", "Cmd", "Volumes", "ExposedPorts", "HostConfig"]
  image : m.lookup "Image" = some (.string spec.image)
  command : m.lookup "Cmd" = some (texts spec.command)
  host : m.lookup "HostConfig" =
    some (.object [("Binds", texts spec.binds), ("Privileged", .bool spec.privileged)])
  volumes : Lists (m.lookup "Volumes") spec.volumes
  ports : Lists (m.lookup "ExposedPorts") (spec.ports.map portName)

/-- Specifications that differ at most in the name, and in how often and in which order volumes and
ports are given. -/
structure Alike (s s' : Spec) : Prop where
  image : s.image = s'.image
  command : s.command = s'.command
  binds : s.binds = s'.binds
  privileged : s.privileged = s'.privileged
  volumes : ∀ v, v ∈ s.volumes ↔ v ∈ s'.volumes
  ports : ∀ p, p ∈ s.ports ↔ p ∈ s'.ports

/-! ## Names and texts -/

theorem portName_injective {p q : UInt16} (h : portName p = portName q) : p = q := by
  have hdecimal : ∀ p : UInt16,
      (portName p).toList = (toString p.toNat).toList ++ "/tcp".toList := by
    intro p
    rw [portName, String.toList_append]
    rfl
  have hlist := congrArg String.toList h
  rw [hdecimal, hdecimal] at hlist
  have hnat := Text.eq_of_toString_eq (String.toList_inj.mp (List.append_cancel_right hlist))
  exact UInt16.toNat_inj.mp hnat

theorem texts_injective {l l' : List String} (h : texts l = texts l') : l = l' := by
  have hmap : l.map Json.string = l'.map Json.string := Json.array.inj h
  exact List.map_injective_iff.mpr (fun _ _ => Json.string.inj) hmap

variable {l : List String} {spec : Spec}

theorem mem_names_iff {e : String × Json} :
    e ∈ (SortedMap.ofList (l.map fun n => (n, emptyObject))).entries ↔
      e.1 ∈ l ∧ e.2 = emptyObject := by
  rw [← SortedMap.get?_eq_some_iff, SortedMap.get?_ofList_const]
  split
  next h => simp [h, eq_comm]
  next h => simp [h]

theorem namesAll_names (l : List String) :
    NamesAll (SortedMap.ofList (l.map fun n => (n, emptyObject))).entries l where
  once := Json.nodup_of_ascending (SortedMap.sorted _)
  mem_iff n := by
    rw [List.mem_map]
    constructor
    · rintro ⟨e, he, rfl⟩
      exact (mem_names_iff.mp he).1
    · exact fun hn => ⟨(n, emptyObject), mem_names_iff.mpr ⟨hn, rfl⟩, rfl⟩
  empty e he := (mem_names_iff.mp he).2

/-- The same object names lists of the same elements. -/
theorem names_congr {l' : List String} (h : ∀ n, n ∈ l ↔ n ∈ l') : names l = names l' := by
  have hmap : SortedMap.ofList (l.map fun n => (n, emptyObject)) =
      SortedMap.ofList (l'.map fun n => (n, emptyObject)) := by
    ext1 k
    rw [SortedMap.get?_ofList_const, SortedMap.get?_ofList_const]
    simp only [h k]
  rw [names, names, hmap]

/-! ## The body as a value -/

theorem integral_texts (l : List String) : Integral (texts l) := by
  rw [texts, Integral]
  induction l with
  | nil => exact trivial
  | cons s l ih => exact ⟨trivial, ih⟩

theorem depth_texts_le (l : List String) : depth (texts l) ≤ 1 := by
  rw [texts, depth]
  induction l with
  | nil => exact Nat.le_refl 1
  | cons s l ih => simpa [depthItems, depth] using ih

theorem integral_names (l : List String) : Integral (names l) := by
  rw [names, Integral, integralMembers_iff]
  intro e he
  rw [(mem_names_iff.mp he).2]
  trivial

theorem depth_names_le (l : List String) : depth (names l) ≤ 2 := by
  rw [names, depth]
  refine Nat.succ_le_succ (depthMembers_le_iff.mpr fun e he => ?_)
  rw [(mem_names_iff.mp he).2]
  exact Nat.le_refl 1

/-- The members of the body of a creation. -/
def bodyMembers (s : Spec) : List (String × Json) :=
  [("Image", .string s.image), ("Cmd", texts s.command)] ++
    (if s.volumes.isEmpty then [] else [("Volumes", names s.volumes)]) ++
    (if s.ports.isEmpty then [] else [("ExposedPorts", names (s.ports.map portName))]) ++
    [("HostConfig", .object [("Binds", texts s.binds), ("Privileged", .bool s.privileged)])]

theorem createBody_eq (s : Spec) : createBody s = .object (bodyMembers s) := rfl

theorem mem_bodyMembers {e : String × Json} (h : e ∈ bodyMembers spec) :
    Integral e.2 ∧ depth e.2 ≤ 2 := by
  have hcommand := depth_texts_le spec.command
  have hbinds := depth_texts_le spec.binds
  simp only [bodyMembers, List.mem_append, List.mem_cons, List.mem_ite_nil_left, List.not_mem_nil,
    or_false] at h
  rcases h with (((rfl | rfl) | ⟨-, rfl⟩) | ⟨-, rfl⟩) | rfl
  · exact ⟨trivial, Nat.zero_le 2⟩
  · exact ⟨integral_texts _, by simp only; omega⟩
  · exact ⟨integral_names _, depth_names_le _⟩
  · exact ⟨integral_names _, depth_names_le _⟩
  · refine ⟨⟨integral_texts _, trivial, trivial⟩, ?_⟩
    simp only [depth, depthMembers]
    omega

theorem body_creation (spec : Spec) :
    (creation spec).body = Text.Utf8.encode (createBody spec).text := by
  simp only [creation, requestOf, Option.map_some, Option.getD_some]

theorem says_createBody (spec : Spec) : Says (creation spec).body (createBody spec) := by
  have hintegral : Integral (createBody spec) := by
    rw [createBody_eq, Integral, integralMembers_iff]
    exact fun e he => (mem_bodyMembers he).1
  have hdepth : depth (createBody spec) < 128 := by
    have hmembers : depthMembers (bodyMembers spec) ≤ 2 :=
      depthMembers_le_iff.mpr fun e he => (mem_bodyMembers he).2
    rw [createBody_eq, depth]
    omega
  rw [Says, body_creation, Text.Utf8.symbols_encode, Json.text, String.toList_ofList]
  exact Json.ofInput_print hintegral
    (Json.anything_ofJson _ _ (Json.Cursor.admits_ofText hdepth))

theorem describes_bodyMembers (spec : Spec) : Describes (bodyMembers spec) spec := by
  have hlists : ∀ (l : List String) (member : Option Json),
      member = (if l.isEmpty then none else some (names l)) → Lists member l := by
    rintro l _ rfl
    cases l with
    | nil => exact ⟨by simp, nofun⟩
    | cons n l =>
      refine ⟨by simp, fun j hj => ⟨_, ?_, namesAll_names (n :: l)⟩⟩
      exact (Option.some.inj hj).symm
  refine ⟨?_, ?_, ?_, ?_, ?_, hlists _ _ ?_, hlists _ _ ?_⟩ <;> rw [bodyMembers] <;>
    cases spec.volumes <;> cases spec.ports <;> simp [List.lookup_cons]

/-! ## Reading specifications back -/

theorem NamesAll.mem_congr {m : List (String × Json)} {l' : List String} (h : NamesAll m l)
    (h' : NamesAll m l') (n : String) : n ∈ l ↔ n ∈ l' :=
  (h.mem_iff n).symm.trans (h'.mem_iff n)

theorem Lists.mem_congr {member : Option Json} {l' : List String} (h : Lists member l)
    (h' : Lists member l') (n : String) : n ∈ l ↔ n ∈ l' := by
  cases hmember : member with
  | none => rw [h.absent.mp hmember, h'.absent.mp hmember]
  | some j =>
    obtain ⟨m, rfl, hm⟩ := h.present j hmember
    obtain ⟨m', heq, hm'⟩ := h'.present _ hmember
    cases heq
    exact hm.mem_congr hm' n

theorem Describes.alike {m : List (String × Json)} {spec' : Spec} (h : Describes m spec)
    (h' : Describes m spec') : Alike spec spec' := by
  have himage := h.image.symm.trans h'.image
  have hcommand := h.command.symm.trans h'.command
  have hhost := h.host.symm.trans h'.host
  simp only [Option.some.injEq, Json.object.injEq, List.cons.injEq, Prod.mk.injEq,
    Json.string.injEq, Json.bool.injEq, true_and, and_true] at himage hcommand hhost
  refine ⟨himage, texts_injective hcommand, texts_injective hhost.1, hhost.2,
    h.volumes.mem_congr h'.volumes, fun p => ?_⟩
  have hmem : ∀ l : List UInt16, p ∈ l ↔ portName p ∈ l.map portName := fun l =>
    (List.mem_map_of_injective fun _ _ => portName_injective).symm
  rw [hmem, hmem]
  exact h.ports.mem_congr h'.ports _

/-- Nothing else of a specification goes into the body. -/
theorem Alike.createBody_eq {spec' : Spec} (h : Alike spec spec') :
    createBody spec = createBody spec' := by
  have hempty : ∀ {α : Type} (l l' : List α), (∀ x, x ∈ l ↔ x ∈ l') → l.isEmpty = l'.isEmpty := by
    intro α l l' hmem
    rw [Bool.eq_iff_iff, List.isEmpty_iff, List.isEmpty_iff, List.eq_nil_iff_forall_not_mem,
      List.eq_nil_iff_forall_not_mem]
    simp only [hmem]
  have hports : names (spec.ports.map portName) = names (spec'.ports.map portName) :=
    names_congr fun n => by simp only [List.mem_map, h.ports]
  rw [Daemon.createBody_eq, Daemon.createBody_eq, bodyMembers, bodyMembers, h.image, h.command,
    h.binds, h.privileged, hempty _ _ h.volumes, hempty _ _ h.ports, names_congr h.volumes, hports]

/-- What is sent to create a container reads as an object that describes the specification and has
nothing besides; and two specifications are sent as the same octets exactly when they are alike. -/
theorem bodies_describe_specs (spec : Spec) :
    (∀ cl, cl.Fits (.create spec) → ∃ r, sent? (answer cl (.create spec)) = some r) ∧
    (∀ cl r, sent? (answer cl (.create spec)) = some r → r = creation spec) ∧
    (∃ m, Says (creation spec).body (.object m) ∧ Describes m spec) ∧
    ∀ spec', (creation spec').body = (creation spec).body ↔ Alike spec' spec := by
  have hsays : ∃ m, Says (creation spec).body (.object m) ∧ Describes m spec :=
    ⟨_, says_createBody spec, describes_bodyMembers spec⟩
  refine ⟨fun cl hfits => ⟨_, congrArg sent? (answer_create hfits)⟩, fun _ _ => sent_create, hsays,
    fun spec' => ⟨fun heq => ?_, fun h => ?_⟩⟩
  · have hother := says_createBody spec'
    rw [heq, Says, says_createBody spec] at hother
    have hmembers : bodyMembers spec = bodyMembers spec' := Json.object.inj (Except.ok.inj hother)
    have hdescribes := describes_bodyMembers spec
    rw [hmembers] at hdescribes
    exact (describes_bodyMembers spec').alike hdescribes
  · rw [body_creation, body_creation, h.createBody_eq]

/-- A port that is given twice is exposed once, and ports are in the order of their texts. -/
theorem bodies_describe_specs_ports :
    ∃ r, sent? (answer localDaemon
        (.create ⟨"r1", "replica:1", [], [], ["/data"], false, [9502, 80, 9502]⟩)) = some r ∧
      r.body = Text.Utf8.encode ("\x7b\"Image\":\"replica:1\",\"Cmd\":[]," ++
        "\"Volumes\":\x7b\"/data\":\x7b\x7d\x7d," ++
        "\"ExposedPorts\":\x7b\"80/tcp\":\x7b\x7d,\"9502/tcp\":\x7b\x7d\x7d," ++
        "\"HostConfig\":\x7b\"Binds\":[],\"Privileged\":false\x7d\x7d") ∧
      r.body = (creation ⟨"r1", "replica:1", [], [], ["/data"], false, [80, 9502]⟩).body := by
  obtain ⟨hsent, hcreation, -, halike⟩ :=
    bodies_describe_specs ⟨"r1", "replica:1", [], [], ["/data"], false, [9502, 80, 9502]⟩
  obtain ⟨r, hr⟩ := hsent localDaemon (fits_of_length_le (by decide) (by decide))
  have hports : ∀ p : UInt16, p ∈ [80, 9502] ↔ p ∈ [9502, 80, 9502] := by
    intro p
    simp only [List.mem_cons, List.not_mem_nil, or_false]
    tauto
  have hbody := (halike ⟨"r1", "replica:1", [], [], ["/data"], false, [80, 9502]⟩).mpr
    ⟨rfl, rfl, rfl, rfl, fun _ => Iff.rfl, hports⟩
  refine ⟨r, hr, ?_, ?_⟩ <;> rw [hcreation localDaemon r hr]
  · rw [body_creation]
    exact congrArg Text.Utf8.encode (by decide +kernel)
  · exact hbody.symm

end HostAgent.Container.Daemon
