import HostAgent.Proofs.Container.Accounts

namespace HostAgent.Executor

/-!
# Requests by the side of each other

Any number of requests for new instances are carried out on one simulated engine, which may begin or
cease to fail between any two calls. The account of the containers is kept by every step, and when
all requests are done it says what each of them has added.
-/

open Container (Engine)
open Interleaving

/-- The simulated engine as a shared part that may be switched at any time. -/
def shared : Shared Container.interface := ⟨Engine, Engine.step, Engine.Switched⟩

section Runs

variable {ι : Type} [DecidableEq ι] {x : ι → Executor} {r : ι → Request} {e₀ : Engine}
variable {t u : Situation shared Probe.interface ι (Except AgentError Instance)}
variable {m : Moment shared Probe.interface ι} {tr : List (Moment shared Probe.interface ι)}
variable {i : ι} {id : String}

def begun (x : ι → Executor) (r : ι → Request) (e : Engine) :
    Situation shared Probe.interface ι (Except AgentError Instance) :=
  ⟨e, fun i => ((x i).process (r i)).run⟩

def phase (r : ι → Request) (tr : List (Moment shared Probe.interface ι)) (i : ι) : Phase :=
  (creation (newName? (r i))).after .fresh (exchanges i tr)

def Created (i : ι) (id : String) (tr : List (Moment shared Probe.interface ι)) : Prop :=
  ∃ m ∈ tr, ∃ y, m.act = .exchange i y ∧ created? y = some id

theorem phase_concat_of_exchange {y : Exchange interface} (hact : m.act = .exchange i y) :
    phase r (tr ++ [m]) = Function.update (phase r tr) i
      ((creation (newName? (r i))).next (phase r tr i) y.1 y.2) := by
  funext j
  by_cases hj : j = i
  · subst hj
    rw [Function.update_self, phase, exchanges_concat, Act.of?_eq_some_iff.mpr hact,
      Option.toList_some, Protocol.after_concat]
    rfl
  · have hnone : m.act.of? j = none := by
      rw [hact, Act.of?, if_neg (Ne.symm hj)]
    rw [Function.update_of_ne hj, phase, exchanges_concat, hnone, Option.toList_none,
      List.append_nil]
    rfl

theorem phase_concat_of_change (hact : m.act = .change) : phase r (tr ++ [m]) = phase r tr := by
  funext j
  rw [phase, exchanges_concat, hact, Act.of?, Option.toList_none, List.append_nil]
  rfl

theorem obeys_of_run (hr : ∀ i, Creates (r i)) (h : Run (begun x r e₀) tr t) (i : ι) :
    (t.tasks i).Obeys (creation (newName? (r i))) Settled (phase r tr i) :=
  h.obeys ((x i).process_obeys (hr i))

theorem moves_of_step (hr : ∀ i, Creates (r i)) (h : Run (begun x r e₀) tr t) (hs : Step t m u)
    (hp : (phase r tr i).Holds (newName? (r i)) t.state) {y : Exchange interface}
    (hact : m.act = .exchange i y) :
    Moves (newName? (r i)) (phase r tr i) t.state
      ((creation (newName? (r i))).next (phase r tr i) y.1 y.2) u.state := by
  have hallows := hs.allows (obeys_of_run hr h i) hact
  obtain ⟨c, a⟩ := y
  cases c with
  | inl c =>
    have hanswer : Engine.step c t.state = (a, u.state) := by
      rw [← hs.before_eq, ← hs.after_eq]
      exact hs.answer_eq hact
    have hmoves := moves_of_allows hp hallows
    rw [hanswer] at hmoves
    exact hmoves
  | inr w =>
    have hsame : u.state = t.state := by
      rw [← hs.before_eq, ← hs.after_eq]
      exact hs.after_of_own hact
    rw [hsame]
    exact moves_of_wait hp hallows a

theorem sound_of_step (hs : Step t m u) (h : Engine.Sound t.state) : Engine.Sound u.state := by
  cases hs with
  | shared hi => exact h.step _
  | own hi a => exact h
  | change hc => exact h.of_eq hc.1 hc.2.1

theorem accounted_of_run (hr : ∀ i, Creates (r i)) (he : e₀.Sound)
    (h : Run (begun x r e₀) tr t) :
    Accounted (fun i => newName? (r i)) e₀ (phase r tr) t.state := by
  induction h with
  | nil => exact .fresh he
  | @concat tr m t u h hs ih =>
    cases hact : m.act with
    | exchange i y =>
      rw [phase_concat_of_exchange hact]
      exact ih.move (sound_of_step hs ih.sound) (moves_of_step hr h hs (ih.holds i) hact)
    | change =>
      rw [phase_concat_of_change hact]
      refine ih.switch ?_
      rw [← hs.before_eq, ← hs.after_eq]
      exact hs.changes_of_change hact

/-- The identifier of a request is that of the container which it has created. -/
theorem id?_phase_iff (hr : ∀ i, Creates (r i)) (h : Run (begun x r e₀) tr t) :
    (phase r tr i).id? = some id ↔ Created i id tr := by
  induction h with
  | nil =>
    constructor
    · intro hid
      cases hid
    · rintro ⟨m, hm, -⟩
      cases hm
  | @concat tr m t u h hs ih =>
    have hcreated : Created i id (tr ++ [m]) ↔
        Created i id tr ∨ ∃ y, m.act = .exchange i y ∧ created? y = some id := by
      simp [Created, or_and_right, exists_or]
    rw [hcreated, ← ih]
    cases hact : m.act with
    | exchange j y =>
      rw [phase_concat_of_exchange hact]
      by_cases hj : i = j
      · subst hj
        rw [Function.update_self, id?_next_iff (hs.allows (obeys_of_run hr h i) hact)]
        simp
      · rw [Function.update_of_ne hj]
        simp [Ne.symm hj]
    | change =>
      rw [phase_concat_of_change hact]
      simp

/-- A step of a request changes no container but the one that the request has created. -/
theorem created_of_changed (hr : ∀ i, Creates (r i)) (he : e₀.Sound)
    (h : Run (begun x r e₀) tr t) (hm : m ∈ tr) {y : Exchange interface}
    (hact : m.act = .exchange i y)
    (hchanged : (Engine.containers m.after).get? id ≠ (Engine.containers m.before).get? id) :
    Created i id tr := by
  obtain ⟨a, b, t₁, t₂, rfl, ha, hs, -⟩ := h.exists_step hm
  have hmoves := moves_of_step hr ha hs ((accounted_of_run hr he ha).holds i) hact
  rw [hs.before_eq, hs.after_eq] at hchanged
  have hid : (phase r (a ++ [m]) i).id? = some id := by
    rw [phase_concat_of_exchange hact, Function.update_self]
    by_contra hne
    exact hchanged (hmoves.frame id hne)
  obtain ⟨m', hm', hcreated⟩ := (id?_phase_iff hr (ha.concat hs)).mp hid
  refine ⟨m', ?_, hcreated⟩
  rw [List.append_cons]
  exact List.mem_append_left b hm'

def NamesUnique (e : Engine) : Prop :=
  ∀ id c id' c', e.containers.get? id = some c → e.containers.get? id' = some c' →
    c.name = c'.name → id = id'

theorem settled_of_done (hr : ∀ i, Creates (r i)) (h : Run (begun x r e₀) tr t)
    {result : Except AgentError Instance} (hdone : t.tasks i = .done result) :
    Settled (phase r tr i) result := by
  have hobeys := obeys_of_run hr h i
  rw [hdone] at hobeys
  exact hobeys

theorem Settled.cases {p : Phase} {result : Except AgentError Instance} (h : Settled p result) :
    (∃ id, p = .kept id ∧ Stays result) ∨ (∃ id, p = .gone id ∧ ¬ Stays result) ∨
      p = .fresh ∧ ¬ Stays result := by
  cases p with
  | kept id => exact .inl ⟨id, rfl, h⟩
  | gone id => exact .inr (.inl ⟨id, rfl, h⟩)
  | fresh => exact .inr (.inr ⟨rfl, h⟩)
  | created id | started id | doomed id => exact h.elim

theorem kept_of_stays (hr : ∀ i, Creates (r i)) (h : Run (begun x r e₀) tr t)
    {result : Except AgentError Instance} (hdone : t.tasks i = .done result)
    (hstays : Stays result) : ∃ id, phase r tr i = .kept id := by
  rcases (settled_of_done hr h hdone).cases with ⟨id, hid, -⟩ | ⟨id, -, hnot⟩ | ⟨-, hnot⟩
  · exact ⟨id, hid⟩
  · exact absurd hstays hnot
  · exact absurd hstays hnot

theorem get?_of_not_stays (hr : ∀ i, Creates (r i)) (he : e₀.Sound)
    (h : Run (begun x r e₀) tr t) {result : Except AgentError Instance}
    (hdone : t.tasks i = .done result) (hnot : ¬ Stays result)
    (hid : (phase r tr i).id? = some id) : (Engine.containers t.state).get? id = none := by
  have hholds := (accounted_of_run hr he h).holds i
  rcases (settled_of_done hr h hdone).cases with ⟨id', -, hstays⟩ | ⟨id', hgone, -⟩ | ⟨hfresh, -⟩
  · exact absurd hstays hnot
  · rw [hgone] at hid hholds
    cases hid
    exact hholds
  · rw [hfresh] at hid
    cases hid

/-- A request that was carried out, or only came to an unready instance, has its container run. -/
theorem running_of_stays (hr : ∀ i, Creates (r i)) (he : e₀.Sound) (h : Run (begun x r e₀) tr t)
    {result : Except AgentError Instance} (hdone : t.tasks i = .done result)
    (hstays : Stays result) :
    ∃ id c, (phase r tr i).id? = some id ∧ (Engine.containers t.state).get? id = some c ∧
      c.running = true ∧ newName? (r i) = some c.name ∧ e₀.containers.get? id = none := by
  obtain ⟨id, hid⟩ := kept_of_stays hr h hdone hstays
  have hacc := accounted_of_run hr he h
  have hholds := hacc.holds i
  rw [hid] at hholds
  obtain ⟨n, address, hn, hget⟩ := hholds
  have hid? : (phase r tr i).id? = some id := by rw [hid]; rfl
  exact ⟨id, _, hid?, hget, rfl, hn, (hacc.issued i id hid?).2⟩

/-- A container that no request leaves behind is as it was before: a request that failed has removed
its own, which was not there at first. -/
theorem get?_of_not_left (hr : ∀ i, Creates (r i)) (he : e₀.Sound) (h : Run (begun x r e₀) tr t)
    (hdone : ∀ i, ∃ result, t.tasks i = .done result)
    (hleft : ∀ i result, t.tasks i = .done result → Stays result → (phase r tr i).id? ≠ some id) :
    (Engine.containers t.state).get? id = e₀.containers.get? id := by
  have hacc := accounted_of_run hr he h
  by_cases hid : ∃ i, (phase r tr i).id? = some id
  · obtain ⟨i, hi⟩ := hid
    obtain ⟨result, hresult⟩ := hdone i
    have hnot : ¬ Stays result := fun hstays => hleft i result hresult hstays hi
    rw [get?_of_not_stays hr he h hresult hnot hi, (hacc.issued i id hi).2]
  · exact hacc.others id fun i hi => hid ⟨i, hi⟩

theorem namesUnique_of_mem (hr : ∀ i, Creates (r i)) (he : e₀.Sound) (h : Run (begun x r e₀) tr t)
    (hm : m ∈ tr) : NamesUnique m.before ∧ NamesUnique m.after := by
  obtain ⟨a, b, t₁, t₂, rfl, ha, hs, -⟩ := h.exists_step hm
  have hsound := (accounted_of_run hr he ha).sound
  rw [hs.before_eq, hs.after_eq]
  exact ⟨hsound.distinct, (sound_of_step hs hsound).distinct⟩

theorem not_stays_of_runtimeFailure {e : AgentError} (h : e.kind = .runtimeFailure) :
    ¬ Stays (.error e) := by
  intro hstays
  unfold Stays at hstays
  split at hstays
  next heq => cases heq
  next what p heq =>
    cases heq
    cases p with
    | timeout => cases h
    | client => cases h
  next => exact hstays

/-- When requests for instances are done, whatever their order, each one that was carried out or
only came to an unready instance has added one running container of its name, and all other
containers are as they were before. A request that failed has left none of its own, no request has
touched that of another, and names were unique at any time. -/
theorem creations_account (he : e₀.Reachable) (hr : ∀ i, Creates (r i))
    (h : Run (begun x r e₀) tr t) (hdone : ∀ i, ∃ result, t.tasks i = .done result) :
    (∃ new : ι → String,
      (∀ i result, t.tasks i = .done result → Stays result →
        ∃ c, (Engine.containers t.state).get? (new i) = some c ∧ c.running = true ∧
          newName? (r i) = some c.name ∧ e₀.containers.get? (new i) = none) ∧
      (∀ i j result result', t.tasks i = .done result → Stays result →
        t.tasks j = .done result' → Stays result' → new i = new j → i = j) ∧
      ∀ id, (∀ i result, t.tasks i = .done result → Stays result → new i ≠ id) →
        (Engine.containers t.state).get? id = e₀.containers.get? id) ∧
    (∀ i e, t.tasks i = .done (.error e) → e.kind = .runtimeFailure →
      ∀ id, Created i id tr → (Engine.containers t.state).get? id = none) ∧
    (∀ m ∈ tr, ∀ i y, m.act = .exchange i y → ∀ id,
      (Engine.containers m.after).get? id ≠ (Engine.containers m.before).get? id →
        Created i id tr ∧ e₀.containers.get? id = none ∧ ∀ j, Created j id tr → j = i) ∧
    NamesUnique e₀ ∧ ∀ m ∈ tr, NamesUnique m.before ∧ NamesUnique m.after := by
  have hacc := accounted_of_run hr he.sound h
  refine ⟨⟨fun i => ((phase r tr i).id?).getD "", ?_, ?_, ?_⟩, ?_, ?_, he.sound.distinct,
    fun m hm => namesUnique_of_mem hr he.sound h hm⟩
  · intro i result hi hstays
    obtain ⟨id, c, hid, hget, hrunning, hname, hnew⟩ := running_of_stays hr he.sound h hi hstays
    simp only [hid, Option.getD_some]
    exact ⟨c, hget, hrunning, hname, hnew⟩
  · intro i j result result' hi hstays hj hstays' hnew
    obtain ⟨id, -, hid, -⟩ := running_of_stays hr he.sound h hi hstays
    obtain ⟨id', -, hid', -⟩ := running_of_stays hr he.sound h hj hstays'
    simp only [hid, hid', Option.getD_some] at hnew
    exact hacc.apart i j id hid (hnew ▸ hid')
  · intro id hnew
    refine get?_of_not_left hr he.sound h hdone fun i result hi hstays hid => ?_
    refine hnew i result hi hstays ?_
    simp only [hid, Option.getD_some]
  · intro i e hi hkind id hcreated
    exact get?_of_not_stays hr he.sound h hi (not_stays_of_runtimeFailure hkind)
      ((id?_phase_iff hr h).mpr hcreated)
  · intro m hm i y hact id hchanged
    have hcreated := created_of_changed hr he.sound h hm hact hchanged
    have hid := (id?_phase_iff hr h).mpr hcreated
    exact ⟨hcreated, (hacc.issued i id hid).2,
      fun j hj => hacc.apart j i id ((id?_phase_iff hr h).mpr hj) hid⟩

def replicaR1 : Request where
  action := .createReplica
  target := ⟨"r1", .replica, "h1"⟩
  envelope := .withPayload orchestrator (⟨"r1", "v1", 1, "image"⟩ : ReplicaPayload)

def executorH1 : Executor := ⟨⟨"h1", "", ""⟩, .standard⟩

/-- Two requests contend for one name: the second fails while the first is between the creation and
the start of its container. -/
theorem creations_account_contending :
    ∃ tr t, Run (begun (fun _ : Bool => executorH1) (fun _ => replicaR1) default) tr t ∧
      (∃ i, t.tasks false = .done (.ok i)) ∧
      (∃ e, t.tasks true = .done (.error e) ∧ e.kind = .runtimeFailure) ∧
      ∃ new : Bool → String, ∀ i result, t.tasks i = .done result → Stays result →
        ∃ c, (Engine.containers t.state).get? (new i) = some c ∧ c.running = true ∧
          newName? replicaR1 = some c.name ∧
          (default : Engine).containers.get? (new i) = none := by
  have hreachable : Engine.Reachable default := .start "172.17.0.2"
  have hcreates : ∀ _ : Bool, Creates replicaR1 := fun _ => .inr rfl
  have hlaunch : (executorH1.process replicaR1).run =
      (executorH1.launch (replicaSpec ⟨"r1", "v1", 1, "image"⟩) .replica).run := rfl
  let spec := replicaSpec ⟨"r1", "v1", 1, "image"⟩
  let e₁ := (Engine.step (.create spec) default).2
  let e₂ := (Engine.step (.create spec) e₁).2
  have ha₁ : Engine.step (.create spec) default = (.ok (Engine.idOf 1), e₁) := rfl
  have ha₂ : Engine.step (.create spec) e₁ =
      (.error (.api 409 "container name r1 is already in use"), e₂) := rfl
  have hget : e₂.containers.get? (Engine.idOf 1) = some ⟨"r1", "", false⟩ :=
    SortedMap.get?_insert_self _ _ _
  have ha₃ := Engine.step_start_of_some (e := e₂) rfl hget
  have ha₄ := Engine.step_inspect_of_some (e := { e₂.note (.start (Engine.idOf 1)) with
    containers := e₂.containers.insert (Engine.idOf 1) ⟨"r1", "172.17.0.2", true⟩ }) rfl
    (SortedMap.get?_insert_self _ (Engine.idOf 1) _)
  obtain ⟨t₁, h₁, hs₁, hf₁, ho₁⟩ := Run.exists_shared
    (.nil (s := begun (fun _ : Bool => executorH1) (fun _ => replicaR1) default)) (i := false)
    hlaunch ha₁
  obtain ⟨t₂, h₂, hs₂, hf₂, ho₂⟩ := h₁.exists_shared ((ho₁ true (by decide)).trans hlaunch)
    ((congrArg (Engine.step _) hs₁).trans ha₂)
  obtain ⟨t₃, h₃, hs₃, hf₃, ho₃⟩ := h₂.exists_shared ((ho₂ false (by decide)).trans hf₁)
    ((congrArg (Engine.step _) hs₂).trans ha₃)
  obtain ⟨t₄, h₄, -, hf₄, ho₄⟩ := h₃.exists_shared hf₃ ((congrArg (Engine.step _) hs₃).trans ha₄)
  have htrue := ((ho₄ true (by decide)).trans (ho₃ true (by decide))).trans hf₂
  have hdone : ∀ i, ∃ result, t₄.tasks i = .done result := by
    intro i
    cases i with
    | false => exact ⟨_, hf₄⟩
    | true => exact ⟨_, htrue⟩
  obtain ⟨new, hnew, -⟩ := (creations_account hreachable hcreates h₄ hdone).1
  exact ⟨_, t₄, h₄, ⟨_, hf₄⟩, ⟨_, htrue, rfl⟩, new, hnew⟩

end Runs

end HostAgent.Executor
