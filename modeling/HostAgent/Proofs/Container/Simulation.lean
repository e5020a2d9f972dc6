import HostAgent.Proofs.Container.Agreement
import HostAgent.Proofs.Container.Engine

namespace HostAgent.Container

/-!
# The simulated engine among daemons

Seen as a stock, the simulated engine takes commands as a daemon does, but for one of them: it
removes containers as if by force, whether they run or not.
-/

open Daemon (Held Stock Command Answer Takes commandOf?)

/-- The command that does the same without regard to whether the container runs. -/
def Daemon.Command.forced : Command → Command
  | .remove id _ => .remove id true
  | k => k

/-- Force makes a difference for a container that runs only. -/
theorem Daemon.Takes.of_forced {w w' : Stock} {a : Answer} {k : Command} (h : Takes w k.forced a w')
    (hspares : ∀ id h, k = .remove id false → w.find id = some h → h.running = false) :
    Takes w k a w' := by
  cases k with
  | create | start | stop | inspect => exact h
  | remove id force =>
    cases force with
    | true => exact h
    | false =>
      cases h with
      | removed hfind _ => exact .removed hfind (.inl (hspares id _ rfl hfind))
      | unknown hc hfind =>
        cases hc
        exact .unknown rfl hfind

namespace Engine

variable {e e' : Engine} {c : Call} {k : Command} {id : String}

def held (e : Engine) (id : String) : Option Held :=
  (e.containers.get? id).map fun c => ⟨c.name, c.running⟩

def stock (e : Engine) : Stock := ⟨e.held, fun id => ∃ n ≤ e.created, id = idOf n⟩

theorem find_of_none (hx : e.containers.get? id = none) : e.stock.find id = none :=
  congrArg (Option.map _) hx

theorem find_of_some {x : Simulated} (hx : e.containers.get? id = some x) :
    e.stock.find id = some ⟨x.name, x.running⟩ :=
  congrArg (Option.map _) hx

/-- Neither starts nor inspections are to fail. -/
def Steady (e : Engine) : Prop := e.failStarts = false ∧ e.failInspects = false

theorem not_issued_next (e : Engine) : ¬ e.stock.Issued (idOf (e.created + 1)) := by
  rintro ⟨n, hn, hid⟩
  have := idOf_injective hid
  omega

theorem stock_of_eq (hcontainers : e'.containers = e.containers)
    (hcreated : e'.created = e.created) : e'.stock = e.stock := by
  have hheld : e'.held = e.held := funext fun j => by rw [held, held, hcontainers]
  rw [stock, stock, hheld, hcreated]

theorem stock_of_insert {x : Simulated} (hcontainers : e'.containers = e.containers.insert id x)
    (hcreated : e'.created = e.created) : e'.stock = e.stock.put id ⟨x.name, x.running⟩ := by
  simp only [stock, hcreated, Stock.put, Stock.mk.injEq, and_true]
  funext j
  rw [held, hcontainers, SortedMap.get?_insert]
  split <;> rfl

theorem stock_of_erase (hcontainers : e'.containers = e.containers.erase id)
    (hcreated : e'.created = e.created) : e'.stock = e.stock.erase id := by
  simp only [stock, hcreated, Stock.erase, Stock.mk.injEq, and_true]
  funext j
  rw [held, hcontainers, SortedMap.get?_erase]
  split <;> rfl

theorem stock_of_created {x : Simulated} (hcontainers : e'.containers = e.containers.insert id x)
    (hid : id = idOf (e.created + 1)) (hcreated : e'.created = e.created + 1) :
    e'.stock = (e.stock.issue id).put id ⟨x.name, x.running⟩ := by
  have hissued : e'.stock.Issued = (e.stock.issue id).Issued := by
    funext j
    simp only [stock, Stock.issue, hcreated, hid, eq_iff_iff]
    constructor
    · rintro ⟨n, hn, rfl⟩
      rcases Nat.lt_or_eq_of_le hn with hn | rfl
      · exact .inr ⟨n, Nat.le_of_lt_succ hn, rfl⟩
      · exact .inl rfl
    · rintro (rfl | ⟨n, hn, rfl⟩)
      · exact ⟨_, Nat.le_refl _, rfl⟩
      · exact ⟨n, Nat.le_succ_of_le hn, rfl⟩
  have hfind : e'.stock.find = ((e.stock.issue id).put id ⟨x.name, x.running⟩).find := by
    funext j
    simp only [stock, held, hcontainers, SortedMap.get?_insert, Stock.find_put, Stock.find_issue]
    split <;> rfl
  exact congrArg₂ Stock.mk hfind hissued

/-! ## Commands -/

/-- What a command comes to, said as a daemon says it. -/
def answerTo (e : Engine) : Command → Answer
  | .create name => if e.hasName name then .fault 409 else .created (idOf (e.created + 1))
  | .start id =>
    match e.held id with
    | none => .fault 404
    | some h => if h.running then .unchanged else .done
  | .stop id =>
    match e.held id with
    | none => .fault 404
    | some h => if h.running then .done else .unchanged
  | .remove id force =>
    match e.held id with
    | none => .fault 404
    | some h => if h.running && !force then .fault 409 else .done
  | .inspect id =>
    match e.held id with
    | none => .fault 404
    | some h => .found id h

/-- A call comes to what a command does, with what it is answered and leaves behind. -/
structure Does (e : Engine) (c : Call) (k : Command) : Prop where
  takes : Takes e.stock k (e.answerTo k) (e.step c).2.stock
  reply : Reply.of c (some (e.step c).1) = (e.answerTo k).reply
  given : given c (some (e.step c).1) = (e.answerTo k).given

theorem Does.of_step {r : c.Answer} {a : Answer} (hstep : e.step c = (r, e'))
    (hanswer : e.answerTo k = a) (htakes : Takes e.stock k a e'.stock)
    (hreply : Reply.of c (some r) = a.reply) (hgiven : Container.given c (some r) = a.given) :
    e.Does c k := by
  subst hanswer
  refine ⟨?_, ?_, ?_⟩ <;> rw [hstep]
  · exact htakes
  · exact hreply
  · exact hgiven

theorem does_create (e : Engine) (spec : Spec) : e.Does (.create spec) (.create spec.name) := by
  cases hname : e.hasName spec.name with
  | true =>
    have hstep : e.step (.create spec) =
        (.error (.api 409 s!"container name {spec.name} is already in use"),
          e.note (.create spec)) := if_pos hname
    obtain ⟨id, x, hx, hxname⟩ : ∃ id x, e.containers.get? id = some x ∧ x.name = spec.name := by
      by_contra hnone
      have hfree := hasName_eq_false_iff.mpr fun id x hx hxname => hnone ⟨id, x, hx, hxname⟩
      rw [hfree] at hname
      cases hname
    exact .of_step hstep (if_pos hname) (.taken (find_of_some hx) hxname) rfl rfl
  | false =>
    have hanswer : e.answerTo (.create spec.name) = .created (idOf (e.created + 1)) :=
      if_neg (Bool.eq_false_iff.mp hname)
    obtain ⟨e', hstep⟩ : ∃ e', e.step (.create spec) = (.ok (idOf (e.created + 1)), e') :=
      ⟨_, if_neg (Bool.eq_false_iff.mp hname)⟩
    obtain ⟨hfree, hid, hcreated, hcontainers⟩ := step_create_ok hstep
    refine .of_step hstep hanswer ?_ rfl rfl
    rw [stock_of_created hcontainers hid hcreated]
    refine .created ?_ e.not_issued_next
    intro j h hfind
    obtain ⟨x, hx, rfl⟩ := Option.map_eq_some_iff.mp hfind
    exact hfree j x hx

theorem does_unknown (hsteady : e.Steady) (hid : c.id? = some id) (hk : commandOf? c = some k)
    (hx : e.containers.get? id = none) : e.Does c k.forced := by
  have hheld : e.held id = none := find_of_none hx
  have hstock : (e.note c).stock = e.stock := stock_of_eq rfl rfl
  have hanswer : ∀ k : Command, k.id? = some id → e.answerTo k = .fault 404 := by
    intro k hkid
    cases k <;> cases hkid <;> simp [answerTo, hheld]
  have htakes : ∀ k : Command, k.id? = some id → Takes e.stock k (.fault 404) (e.note c).stock := by
    intro k hkid
    rw [hstock]
    exact .unknown hkid hheld
  cases c with
  | ping | create spec => cases hid
  | start =>
    cases hid
    cases hk
    have hstep : e.step (.start id) = (.error (.notFound id), e.note (.start id)) := by
      simp [step, start, change, note, hsteady.1, hx]
      rfl
    exact .of_step hstep (hanswer _ rfl) (htakes _ rfl) rfl rfl
  | stop _ grace =>
    cases hid
    cases hk
    have hstep : e.step (.stop id grace) = (.error (.notFound id), e.note (.stop id grace)) := by
      simp [step, stop, change, note, hx]
      rfl
    exact .of_step hstep (hanswer _ rfl) (htakes _ rfl) rfl rfl
  | remove _ volumes =>
    cases hid
    cases hk
    have hstep : e.step (.remove id volumes) =
        (.error (.notFound id), e.note (.remove id volumes)) := by
      simp [step, remove, note, hx]
      rfl
    exact .of_step hstep (hanswer _ rfl) (htakes _ rfl) rfl rfl
  | inspect =>
    cases hid
    cases hk
    have hstep : e.step (.inspect id) = (.error (.notFound id), e.note (.inspect id)) := by
      simp [step, inspect, hsteady.2, hx]
    exact .of_step hstep (hanswer _ rfl) (htakes _ rfl) rfl rfl

theorem does_start {x : Simulated} (hsteady : e.Steady) (hx : e.containers.get? id = some x) :
    e.Does (.start id) (.start id) := by
  have hfind : e.held id = some ⟨x.name, x.running⟩ := find_of_some hx
  obtain ⟨e', hstep⟩ : ∃ e', e.step (.start id) = (.ok (), e') :=
    ⟨_, step_start_of_some hsteady.1 hx⟩
  obtain ⟨x', hx', hcreated, hcontainers⟩ := step_start_ok hstep
  cases hx.symm.trans hx'
  have hstock := stock_of_insert hcontainers hcreated
  cases hruns : x.running with
  | true =>
    rw [hruns] at hfind
    refine .of_step (a := .unchanged) hstep (by simp [answerTo, hfind]) ?_ rfl rfl
    rw [hstock, Stock.put_self hfind]
    exact .running hfind rfl
  | false =>
    rw [hruns] at hfind
    refine .of_step (a := .done) hstep (by simp [answerTo, hfind]) ?_ rfl rfl
    rw [hstock]
    exact Takes.started (h := ⟨x.name, false⟩) hfind rfl

theorem does_stop {x : Simulated} (hx : e.containers.get? id = some x) (grace : Time.Span) :
    e.Does (.stop id grace) (.stop id) := by
  have hfind : e.held id = some ⟨x.name, x.running⟩ := find_of_some hx
  have hok : (e.step (.stop id grace)).1 = (.ok () : Except Error Unit) := by
    simp [step, stop, change, note, hx]
    rfl
  obtain ⟨e', hstep⟩ : ∃ e', e.step (.stop id grace) = (.ok (), e') := ⟨_, Prod.ext hok rfl⟩
  obtain ⟨x', hx', hcreated, hcontainers⟩ := change_ok hstep
  cases hx.symm.trans hx'
  have hstock := stock_of_insert (e := e) hcontainers hcreated
  cases hruns : x.running with
  | true =>
    rw [hruns] at hfind
    refine .of_step (a := .done) hstep (by simp [answerTo, hfind]) ?_ rfl rfl
    rw [hstock]
    exact Takes.stopped (h := ⟨x.name, true⟩) hfind rfl
  | false =>
    rw [hruns] at hfind
    refine .of_step (a := .unchanged) hstep (by simp [answerTo, hfind]) ?_ rfl rfl
    rw [hstock, Stock.put_self hfind]
    exact .idle hfind rfl

/-- A container is removed as if by force. -/
theorem does_remove {x : Simulated} (hx : e.containers.get? id = some x) (volumes : Bool) :
    e.Does (.remove id volumes) (.remove id true) := by
  have hfind : e.held id = some ⟨x.name, x.running⟩ := find_of_some hx
  have hok : (e.step (.remove id volumes)).1 = (.ok () : Except Error Unit) := by
    simp [step, remove, note, hx]
    rfl
  obtain ⟨e', hstep⟩ : ∃ e', e.step (.remove id volumes) = (.ok (), e') := ⟨_, Prod.ext hok rfl⟩
  obtain ⟨hcontainers, hcreated⟩ := e.step_remove id volumes
  rw [hstep] at hcontainers hcreated
  refine .of_step (a := .done) hstep (by simp [answerTo, hfind]) ?_ rfl rfl
  rw [stock_of_erase hcontainers hcreated]
  exact .removed hfind (.inr rfl)

theorem does_inspect {x : Simulated} (hsteady : e.Steady) (hx : e.containers.get? id = some x) :
    e.Does (.inspect id) (.inspect id) := by
  have hfind : e.held id = some ⟨x.name, x.running⟩ := find_of_some hx
  refine .of_step (a := .found id ⟨x.name, x.running⟩) (step_inspect_of_some hsteady.2 hx)
    (by simp [answerTo, hfind]) ?_ rfl rfl
  rw [stock_of_eq (e := e) rfl rfl]
  exact .inspected hfind

/-- Every call does what its command does by force. -/
theorem does (hsteady : e.Steady) (hk : commandOf? c = some k) : e.Does c k.forced := by
  cases hid : c.id? with
  | none =>
    cases c with
    | create spec =>
      cases hk
      exact e.does_create spec
    | ping => cases hk
    | start | stop | remove | inspect => cases hid
  | some id =>
    cases hx : e.containers.get? id with
    | none => exact does_unknown hsteady hid hk hx
    | some x =>
      cases c with
      | ping | create => cases hid
      | start =>
        cases hid
        cases hk
        exact does_start hsteady hx
      | stop _ grace =>
        cases hid
        cases hk
        exact does_stop hx grace
      | remove _ volumes =>
        cases hid
        cases hk
        exact does_remove hx volumes
      | inspect =>
        cases hid
        cases hk
        exact does_inspect hsteady hx

theorem Steady.change (h : e.Steady) (f : Simulated → Simulated) : (e.change id f).2.Steady := by
  rw [Engine.change]
  split
  · exact h
  · exact h

theorem Steady.step (h : e.Steady) (c : Call) : (e.step c).2.Steady := by
  cases c with
  | ping | inspect id => exact h
  | create spec =>
    simp only [Engine.step, Engine.create]
    split
    · exact h
    · exact h
  | start id =>
    simp only [Engine.step, Engine.start]
    split
    · exact h
    · exact Steady.change (e := e.note (.start id)) h _
  | stop id grace => exact Steady.change (e := e.note (.stop id grace)) h _
  | remove id volumes =>
    simp only [Engine.step, Engine.remove]
    split
    · exact h
    · exact h

end Engine

end HostAgent.Container
