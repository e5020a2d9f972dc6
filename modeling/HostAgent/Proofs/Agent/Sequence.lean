import HostAgent.Proofs.Agent.Records
import HostAgent.Proofs.Text.Utf8

namespace HostAgent

/-!
# Agents one after another

Whatever agents have done to the records of a cluster, one operation after another over a store
that was empty: what they are answered next is what a catalog would answer, and what is stored is
what the catalog has become.
-/

open Store Store.Space

/-! ## Errors of decoding -/

namespace Store.Error

def isDecoding : Error → Bool
  | .json _ => true
  | _ => false

end Store.Error

/-- Whether a text in the store was no record. -/
def AgentError.isDecoding : AgentError → Bool
  | .store _ _ source => source.isDecoding
  | .context _ source => source.isDecoding
  | _ => false

theorem Store.Space.Operation.isDecoding_apply {M : Interface} {s : Space}
    {answer : (c : M.Call) → M.Answer c} {c : Catalog} {o : Space.Operation M} {e : Store.Error}
    (h : (o.apply s answer c).1 = .error e) : e.isDecoding = false := by
  cases o with
  | createVolume v =>
    simp only [apply] at h
    split at h
    · cases h
    · cases h
      rfl
  | changeVolume name mutate =>
    simp only [apply] at h
    split at h <;> cases h
  | _ => cases h

theorem Agent.Operation.isDecoding_apply {a : Agent} {now : Time.Timestamp} {c : Catalog}
    {o : Agent.Operation} {e : AgentError} (h : (o.apply a now c).1 = .error e) :
    e.isDecoding = false := by
  cases o with
  | createVolume v | updateVolume v | deleteVolume v | markBadReplica v =>
    simp only [apply] at h
    split at h
    all_goals cases h
    all_goals rfl
  | _ => cases h

/-! ## Turns -/

/-- One operation: of an agent, or on the records themselves. Other parts than the store answer as
they are given to. -/
inductive Turn where
  | agent (a : Agent) (others : (c : Agent.Call) → c.Answer) (o : Agent.Operation)
  | records (M : Interface) (answer : (c : M.Call) → M.Answer c) (o : Space.Operation M)

namespace Turn

def Error : Turn → Type
  | .agent _ _ _ => AgentError
  | .records _ _ _ => Store.Error

def Value : Turn → Type
  | .agent _ _ o => o.Value
  | .records _ _ o => o.Value

def isReading : Turn → Bool
  | .agent _ _ o => o.isReading
  | .records _ _ o => o.isReading

def isDecoding : (t : Turn) → t.Error → Bool
  | .agent _ _ _ => AgentError.isDecoding
  | .records _ _ _ => Store.Error.isDecoding

def run (s : Space) (m : Memory) : (t : Turn) → Except t.Error t.Value × Memory
  | .agent a others o => (o.op { a with space := s }).run.run (Agent.stepInMemory others) m
  | .records _ answer o => (o.change s).run.run (Memory.stepBeside answer) m

def apply (s : Space) (c : Catalog) : (t : Turn) → Except t.Error t.Value × Catalog
  | .agent a others o => o.apply a (others .now) c
  | .records _ answer o => o.apply s answer c

variable {s : Space} {m : Memory} {c : Catalog}

theorem matches_run (h : s.Holds m c) (t : Turn) :
    s.Matches m t.isReading (t.run s m) (t.apply s c) := by
  cases t with
  | agent a others o => exact Agent.matches_operation (a := { a with space := s }) others h o
  | records M answer o => exact h.operation answer o

theorem isDecoding_apply {t : Turn} {e : t.Error} (h : (t.apply s c).1 = .error e) :
    t.isDecoding e = false := by
  cases t with
  | agent a others o => exact Agent.Operation.isDecoding_apply h
  | records M answer o => exact Space.Operation.isDecoding_apply h

def memoryAfter (s : Space) (past : List Turn) : Memory :=
  past.foldl (fun m t => (t.run s m).2) .empty

def catalogAfter (s : Space) (past : List Turn) : Catalog :=
  past.foldl (fun c t => (t.apply s c).2) .empty

theorem holds_after (s : Space) (past : List Turn) :
    s.Holds (memoryAfter s past) (catalogAfter s past) := by
  suffices ∀ m c, s.Holds m c → s.Holds (past.foldl (fun m t => (t.run s m).2) m)
      (past.foldl (fun c t => (t.apply s c).2) c) from this _ _ (Holds.empty s)
  induction past with
  | nil => exact fun m c h => h
  | cons t past ih => exact fun m c h => ih _ _ (matches_run h t).holds

end Turn

/-! ## What comes next -/

/-- The values that a listing gives of a table: those under keys without a slash, each of them once
and in the order of the octets of the keys. -/
def Lists {β : Type} (t : SortedMap β) (l : List β) : Prop :=
  ∃ entries : List (String × β),
    entries.Pairwise (fun d e => Text.Utf8.encode d.1 < Text.Utf8.encode e.1) ∧
    (∀ k v, (k, v) ∈ entries ↔ t.get? k = some v ∧ '/' ∉ k.toList) ∧ l = entries.map Prod.snd

theorem lists_direct {β : Type} (t : SortedMap β) : Lists t t.direct.values :=
  ⟨t.direct.entries, t.direct.sorted.imp Text.Utf8.encode_lt_encode,
    fun _ _ => SortedMap.mem_direct, rfl⟩

/-- A store in memory is to all operations what a catalog is. -/
structure Store.Memory.ActsAs (m : Memory) (s : Space) (c : Catalog) : Prop where
  answer : ∀ t : Turn, (t.run s m).1 = (t.apply s c).1
  holds : ∀ t : Turn, s.Holds (t.run s m).2 (t.apply s c).2
  reading : ∀ t : Turn, t.isReading = true → (t.run s m).2 = m
  failing : ∀ (t : Turn) (e : t.Error), (t.run s m).1 = .error e →
    (t.run s m).2 = m ∧ t.isDecoding e = false
  createVolume : ∀ a others v, (Turn.run s m (.agent a others (.createVolume v))).1 =
    .error (.alreadyExists "volume" v.name) ↔ c.volumes.contains v.name
  updateVolume : ∀ a others v, (Turn.run s m (.agent a others (.updateVolume v))).1 =
    .error (.context s!"cannot update volume {v.name}" (.notFound "volume" v.name)) ↔
      ¬ c.volumes.contains v.name
  deleteVolume : ∀ a others name, (Turn.run s m (.agent a others (.deleteVolume name))).1 =
    .error (.notFound "volume" name) ↔ ¬ c.volumes.contains name
  markBadReplica : ∀ a others volume replica,
    (Turn.run s m (.agent a others (.markBadReplica volume replica))).1 =
      .error (.context "fail to mark bad replica" (.notFound "volume" volume)) ↔
        ¬ c.volumes.contains volume
  listVolumes : ∃ l, Lists c.volumes l ∧
    (∀ a others, (Turn.run s m (.agent a others .listVolumes)).1 = .ok l) ∧
    ∀ M answer, (Turn.run s m (.records M answer .listVolumes)).1 = .ok l
  listHosts : ∃ t, Lists c.hosts t.values ∧
    (∀ a others, (Turn.run s m (.agent a others .listHosts)).1 = .ok t) ∧
    ∀ M answer, (Turn.run s m (.records M answer .listHosts)).1 = .ok t.values

namespace Agent.Operation

variable (a : Agent) (now : Time.Timestamp) {c : Catalog}

theorem apply_createVolume_iff {v : Volume} :
    (apply a now c (.createVolume v)).1 = .error (.alreadyExists "volume" v.name) ↔
      c.volumes.contains v.name := by
  simp only [apply, SortedMap.contains]
  cases c.volumes.get? v.name with
  | none => simp
  | some u => simp

theorem apply_updateVolume_iff {v : Volume} :
    (apply a now c (.updateVolume v)).1 =
      .error (.context s!"cannot update volume {v.name}" (.notFound "volume" v.name)) ↔
        ¬ c.volumes.contains v.name := by
  simp only [apply, SortedMap.contains]
  cases c.volumes.get? v.name with
  | none => simp
  | some u => simp

theorem apply_deleteVolume_iff {name : String} :
    (apply a now c (.deleteVolume name)).1 = .error (.notFound "volume" name) ↔
      ¬ c.volumes.contains name := by
  simp only [apply, SortedMap.contains]
  cases c.volumes.get? name with
  | none => simp
  | some u => simp

theorem apply_markBadReplica_iff {volume : String} {replica : Replica} :
    (apply a now c (.markBadReplica volume replica)).1 =
      .error (.context "fail to mark bad replica" (.notFound "volume" volume)) ↔
        ¬ c.volumes.contains volume := by
  simp only [apply, SortedMap.contains]
  cases c.volumes.get? volume with
  | none => simp
  | some u => simp

end Agent.Operation

theorem Store.Space.Holds.actsAs {s : Space} {m : Memory} {c : Catalog} (h : s.Holds m c) :
    m.ActsAs s c where
  answer t := (t.matches_run h).answer
  holds t := (t.matches_run h).holds
  reading t hreading := (t.matches_run h).unchanged (.inl hreading)
  failing t e he := by
    have hmatches := t.matches_run h
    refine ⟨hmatches.unchanged (.inr ⟨e, he⟩), ?_⟩
    rw [hmatches.answer] at he
    exact Turn.isDecoding_apply he
  createVolume a others v := by
    rw [(Turn.matches_run h (.agent a others (.createVolume v))).answer]
    exact Agent.Operation.apply_createVolume_iff a (others .now)
  updateVolume a others v := by
    rw [(Turn.matches_run h (.agent a others (.updateVolume v))).answer]
    exact Agent.Operation.apply_updateVolume_iff a (others .now)
  deleteVolume a others name := by
    rw [(Turn.matches_run h (.agent a others (.deleteVolume name))).answer]
    exact Agent.Operation.apply_deleteVolume_iff a (others .now)
  markBadReplica a others volume replica := by
    rw [(Turn.matches_run h (.agent a others (.markBadReplica volume replica))).answer]
    exact Agent.Operation.apply_markBadReplica_iff a (others .now)
  listVolumes := ⟨_, lists_direct c.volumes,
    fun a others => (Turn.matches_run h (.agent a others .listVolumes)).answer,
    fun M answer => (Turn.matches_run h (.records M answer .listVolumes)).answer⟩
  listHosts := ⟨_, lists_direct c.hosts,
    fun a others => (Turn.matches_run h (.agent a others .listHosts)).answer,
    fun M answer => (Turn.matches_run h (.records M answer .listHosts)).answer⟩

/-- Over a store that was empty, whatever the root, whoever acts and whatever was done before, every
operation is answered as the catalog would answer it, and only those that succeed and are no
readings touch the store. -/
theorem turns_act_as_catalog (root : String) (past : List Turn) :
    (Turn.memoryAfter (.ofRoot root) past).ActsAs (.ofRoot root)
      (Turn.catalogAfter (.ofRoot root) past) :=
  (Turn.holds_after _ past).actsAs

end HostAgent
