import HostAgent.Container.Simulated
import Mathlib.Data.List.Basic

namespace HostAgent.Container.Engine

/-!
# The simulated engine

Identifiers are never given twice, names are unique among the containers that there are, and each
call touches the container of its own identifier only.
-/

/-! ## Identifiers -/

def digitValue (c : Char) : Nat := if c.isDigit then c.toNat - 48 else c.toNat - 87

theorem digitValue_digitChar : ∀ n < 16, digitValue (Nat.digitChar n) = n := by decide

def spelt (ds : List Char) : Nat := ds.foldl (fun n c => n * 16 + digitValue c) 0

theorem spelt_toDigits (n : Nat) : spelt (Nat.toDigits 16 n) = n := by
  induction n using Nat.base_induction 16 (by decide) with
  | single m hm =>
    rw [Nat.toDigits_of_lt_base hm, spelt, List.foldl_cons, List.foldl_nil,
      digitValue_digitChar m hm, Nat.zero_mul, Nat.zero_add]
  | digit m k hk hm ih =>
    have hdigits : Nat.toDigits 16 m ++ [Nat.digitChar k] = Nat.toDigits 16 (16 * m + k) := by
      rw [← Nat.toDigits_of_lt_base hk]
      exact Nat.toDigits_append_toDigits (by decide) hm hk
    rw [← hdigits, spelt, List.foldl_append, List.foldl_cons, List.foldl_nil,
      digitValue_digitChar k hk]
    rw [spelt] at ih
    rw [ih, Nat.mul_comm]

theorem spelt_zeros (k : Nat) (ds : List Char) :
    spelt (List.replicate k '0' ++ ds) = spelt ds := by
  induction k with
  | zero => rfl
  | succ k ih =>
    rw [List.replicate_succ, List.cons_append]
    exact ih

theorem idOf_injective {m n : Nat} (h : idOf m = idOf n) : m = n := by
  have hlist := String.ofList_injective (String.append_right_inj "mock" |>.mp h)
  have hspelt := congrArg spelt hlist
  rwa [spelt_zeros, spelt_zeros, spelt_toDigits, spelt_toDigits] at hspelt

/-! ## Calls -/

variable {e e' : Engine} {id : String} {spec : Spec}

theorem hasName_eq_false_iff {name : String} :
    e.hasName name = false ↔ ∀ id c, e.containers.get? id = some c → c.name ≠ name := by
  simp only [hasName, SortedMap.values, List.any_map, List.any_eq_false, Function.comp_apply,
    beq_iff_eq]
  constructor
  · intro h id c hc
    exact h (id, c) (SortedMap.get?_eq_some_iff.mp hc)
  · intro h p hp
    exact h p.1 p.2 (SortedMap.get?_eq_some_iff.mpr hp)

theorem step_create_ok (h : e.step (.create spec) = (.ok id, e')) :
    (∀ id c, e.containers.get? id = some c → c.name ≠ spec.name) ∧ id = idOf (e.created + 1) ∧
      e'.created = e.created + 1 ∧
      e'.containers = e.containers.insert id ⟨spec.name, "", false⟩ := by
  simp only [step, create] at h
  split at h
  next => cases (Prod.mk.inj h).1
  next hname =>
    obtain ⟨hid, rfl⟩ := Prod.mk.inj h
    cases hid
    exact ⟨hasName_eq_false_iff.mp (Bool.eq_false_iff.mpr hname), rfl, rfl, rfl⟩

theorem step_create_error {x : Error} (h : e.step (.create spec) = (.error x, e')) :
    e'.containers = e.containers ∧ e'.created = e.created := by
  simp only [step, create] at h
  split at h
  next =>
    obtain ⟨-, rfl⟩ := Prod.mk.inj h
    exact ⟨rfl, rfl⟩
  next => cases (Prod.mk.inj h).1

theorem change_ok {f : Simulated → Simulated} (h : e.change id f = (.ok (), e')) :
    ∃ c, e.containers.get? id = some c ∧ e'.created = e.created ∧
      e'.containers = e.containers.insert id (f c) := by
  unfold change at h
  split at h
  next => cases (Prod.mk.inj h).1
  next c hc =>
    obtain ⟨-, rfl⟩ := Prod.mk.inj h
    exact ⟨c, hc, rfl, rfl⟩

theorem change_error {f : Simulated → Simulated} {x : Error}
    (h : e.change id f = (.error x, e')) : e' = e := by
  unfold change at h
  split at h
  next =>
    obtain ⟨-, rfl⟩ := Prod.mk.inj h
    rfl
  next => cases (Prod.mk.inj h).1

theorem step_start_ok (h : e.step (.start id) = (.ok (), e')) :
    ∃ c, e.containers.get? id = some c ∧ e'.created = e.created ∧
      e'.containers = e.containers.insert id { c with running := true, address := e.address } := by
  simp only [step, start] at h
  split at h
  next => cases (Prod.mk.inj h).1
  next =>
    obtain ⟨c, hc, hcreated, hcontainers⟩ := change_ok h
    exact ⟨c, hc, hcreated, hcontainers⟩

theorem step_start_error {x : Error} (h : e.step (.start id) = (.error x, e')) :
    e'.containers = e.containers ∧ e'.created = e.created := by
  simp only [step, start] at h
  split at h
  next =>
    obtain ⟨-, rfl⟩ := Prod.mk.inj h
    exact ⟨rfl, rfl⟩
  next =>
    rw [change_error h]
    exact ⟨rfl, rfl⟩

theorem step_inspect (e : Engine) (id : String) :
    (e.step (.inspect id)).2.containers = e.containers ∧
      (e.step (.inspect id)).2.created = e.created := ⟨rfl, rfl⟩

theorem step_start_of_some {c : Simulated} (hfail : e.failStarts = false)
    (h : e.containers.get? id = some c) :
    e.step (.start id) = (.ok (), { e.note (.start id) with
      containers := e.containers.insert id { c with running := true, address := e.address } }) := by
  simp [step, start, change, note, hfail, h]
  rfl

theorem step_inspect_of_some {c : Simulated} (hfail : e.failInspects = false)
    (h : e.containers.get? id = some c) :
    e.step (.inspect id) =
      (.ok ⟨id, "/" ++ c.name, c.address, c.running⟩, e.note (.inspect id)) := by
  simp [step, inspect, hfail, h]

/-- After a removal there is no container of the identifier, whether there was one or not. -/
theorem step_remove (e : Engine) (id : String) (volumes : Bool) :
    (e.step (.remove id volumes)).2.containers = e.containers.erase id ∧
      (e.step (.remove id volumes)).2.created = e.created := by
  simp only [step, remove, note]
  split
  next hnone =>
    refine ⟨?_, rfl⟩
    ext1 j
    rw [SortedMap.get?_erase]
    split
    next hj =>
      subst hj
      exact hnone
    next => rfl
  next => exact ⟨rfl, rfl⟩

/-! ## One event -/

/-- Something that happens to an engine: a call with its answer, or a setting. -/
inductive Event where
  | call (c : Call) (answer : c.Answer)
  | switch (s : Switch)

/-- The identifier that is given by a creation. -/
def Event.issued? : Event → Option String
  | .call (.create _) (.ok id : Except Error String) => some id
  | _ => none

/-- A start of a container that succeeds. -/
def started (id : String) : Event := .call (.start id) (.ok () : Except Error Unit)

/-- What a call makes of the containers, and of the number of creations. -/
inductive Effect (e : Engine) : Event → SortedMap Simulated → Nat → Prop
  | none {c : Call} {a : c.Answer} (hstarted : ∀ id, Event.call c a ≠ started id)
      (hissued : (Event.call c a).issued? = .none) : Effect e (.call c a) e.containers e.created
  | created {spec : Spec}
      (hname : ∀ id c, e.containers.get? id = some c → c.name ≠ spec.name) :
      Effect e (.call (.create spec) (.ok (idOf (e.created + 1)) : Except Error String))
        (e.containers.insert (idOf (e.created + 1)) ⟨spec.name, "", false⟩) (e.created + 1)
  | started {id : String} {c : Simulated} (hc : e.containers.get? id = some c) :
      Effect e (started id)
        (e.containers.insert id { c with running := true, address := e.address }) e.created
  | stopped {id : String} {grace : Time.Span} {c : Simulated}
      (hc : e.containers.get? id = some c) :
      Effect e (.call (.stop id grace) (.ok () : Except Error Unit))
        (e.containers.insert id { c with running := false, address := "" }) e.created
  | removed {id : String} {volumes : Bool} {c : Simulated} (hc : e.containers.get? id = some c) :
      Effect e (.call (.remove id volumes) (.ok () : Except Error Unit)) (e.containers.erase id)
        e.created

theorem effect_step (e : Engine) (c : Call) :
    Effect e (.call c (e.step c).1) (e.step c).2.containers (e.step c).2.created := by
  cases c with
  | ping => exact .none (by rintro _ ⟨⟩) rfl
  | create spec =>
    cases h : e.step (.create spec) with
    | mk a e' =>
      match a with
      | .ok id =>
        obtain ⟨hname, rfl, hcreated, hcontainers⟩ := step_create_ok h
        simp only [hcontainers, hcreated]
        exact .created hname
      | .error x =>
        obtain ⟨hcontainers, hcreated⟩ := step_create_error h
        simp only [hcontainers, hcreated]
        exact .none (by rintro _ ⟨⟩) rfl
  | start id =>
    cases h : e.step (.start id) with
    | mk a e' =>
      match a with
      | .ok () =>
        obtain ⟨c, hc, hcreated, hcontainers⟩ := step_start_ok h
        simp only [hcontainers, hcreated]
        exact .started hc
      | .error x =>
        obtain ⟨hcontainers, hcreated⟩ := step_start_error h
        simp only [hcontainers, hcreated]
        exact .none (by rintro _ ⟨⟩) rfl
  | stop id grace =>
    cases h : e.step (.stop id grace) with
    | mk a e' =>
      have hchange : (e.note (.stop id grace)).change id
          (fun c => { c with running := false, address := "" }) = (a, e') := h
      match a with
      | .ok () =>
        obtain ⟨c, hc, hcreated, hcontainers⟩ := change_ok hchange
        simp only [hcontainers, hcreated]
        exact .stopped hc
      | .error x =>
        simp only [change_error hchange]
        exact .none (by rintro _ ⟨⟩) rfl
  | remove id volumes =>
    cases h : e.containers.get? id with
    | none =>
      simp only [step, remove, note, h]
      exact .none (by rintro _ ⟨⟩) rfl
    | some c =>
      simp only [step, remove, note, h]
      exact .removed h
  | inspect id => exact .none (by rintro _ ⟨⟩) rfl

/-! ## Soundness -/

/-- The containers have identifiers that were given, and names of their own. -/
structure Sound (e : Engine) : Prop where
  issued : ∀ id c, e.containers.get? id = some c → ∃ k ≤ e.created, id = idOf k
  distinct : ∀ id c id' c', e.containers.get? id = some c → e.containers.get? id' = some c' →
    c.name = c'.name → id = id'

/-- The engine may begin or cease to fail, and take another address. -/
def Switched (e e' : Engine) : Prop :=
  e'.containers = e.containers ∧ e'.created = e.created ∧ e'.calls = e.calls

/-- An engine that came about by calls and switches. -/
inductive Reachable : Engine → Prop
  | start (address : String) : Reachable (ofAddress address)
  | call {e : Engine} (h : Reachable e) (c : Call) : Reachable (e.step c).2
  | switch {e e' : Engine} (h : Reachable e) (hs : Switched e e') : Reachable e'

theorem Sound.of_names (h : e.Sound) (hcreated : e'.created = e.created)
    (hback : ∀ id c, e'.containers.get? id = some c →
      ∃ c₀, e.containers.get? id = some c₀ ∧ c₀.name = c.name) : e'.Sound where
  issued := by
    intro id c hc
    obtain ⟨c₀, hc₀, -⟩ := hback id c hc
    rw [hcreated]
    exact h.issued id c₀ hc₀
  distinct := by
    intro id c id' c' hc hc' hname
    obtain ⟨c₀, hc₀, hn⟩ := hback id c hc
    obtain ⟨c₁, hc₁, hn'⟩ := hback id' c' hc'
    exact h.distinct id c₀ id' c₁ hc₀ hc₁ ((hn.trans hname).trans hn'.symm)

theorem Sound.of_eq (h : e.Sound) (hcontainers : e'.containers = e.containers)
    (hcreated : e'.created = e.created) : e'.Sound := by
  refine h.of_names hcreated ?_
  intro id c hc
  rw [hcontainers] at hc
  exact ⟨c, hc, rfl⟩

theorem Sound.get?_next (h : e.Sound) : e.containers.get? (idOf (e.created + 1)) = none := by
  cases hget : e.containers.get? (idOf (e.created + 1)) with
  | none => rfl
  | some c =>
    obtain ⟨k, hk, hid⟩ := h.issued _ c hget
    have := idOf_injective hid
    omega

/-- A new container takes a name that no other one has. -/
theorem Sound.of_created (h : e.Sound) {name : String}
    (hname : ∀ id c, e.containers.get? id = some c → c.name ≠ name)
    (hcontainers : e'.containers = e.containers.insert (idOf (e.created + 1)) ⟨name, "", false⟩)
    (hcreated : e'.created = e.created + 1) : e'.Sound where
  issued := by
    intro id c hc
    rw [hcontainers, SortedMap.get?_insert] at hc
    rw [hcreated]
    split at hc
    next hid => exact ⟨e.created + 1, Nat.le_refl _, hid⟩
    next =>
      obtain ⟨k, hk, hid⟩ := h.issued id c hc
      exact ⟨k, Nat.le_succ_of_le hk, hid⟩
  distinct := by
    intro id c id' c' hc hc' heq
    rw [hcontainers, SortedMap.get?_insert] at hc hc'
    split at hc <;> split at hc'
    next hid hid' => rw [hid, hid']
    next =>
      cases hc
      exact absurd heq.symm (hname id' c' hc')
    next =>
      cases hc'
      exact absurd heq (hname id c hc)
    next => exact h.distinct id c id' c' hc hc' heq

theorem Sound.of_changed (h : e.Sound) {old new : Simulated}
    (hold : e.containers.get? id = some old)
    (hcontainers : e'.containers = e.containers.insert id new) (hname : new.name = old.name)
    (hcreated : e'.created = e.created) : e'.Sound := by
  refine h.of_names hcreated ?_
  intro j c hc
  rw [hcontainers, SortedMap.get?_insert] at hc
  split at hc
  next hj =>
    cases hc
    rw [hj]
    exact ⟨old, hold, hname.symm⟩
  next => exact ⟨c, hc, rfl⟩

theorem Sound.of_removed (h : e.Sound) (hcontainers : e'.containers = e.containers.erase id)
    (hcreated : e'.created = e.created) : e'.Sound := by
  refine h.of_names hcreated ?_
  intro j c hc
  rw [hcontainers, SortedMap.get?_erase] at hc
  split at hc
  next => cases hc
  next => exact ⟨c, hc, rfl⟩

theorem Sound.of_effect {x : Event} (h : e.Sound)
    (heffect : Effect e x e'.containers e'.created) : e'.Sound := by
  obtain ⟨containers, calls, created, address, failStarts, failInspects⟩ := e'
  dsimp only at heffect
  cases heffect with
  | none => exact h.of_eq rfl rfl
  | created hname => exact h.of_created hname rfl rfl
  | started hc => exact h.of_changed hc rfl rfl rfl
  | stopped hc => exact h.of_changed hc rfl rfl rfl
  | removed => exact h.of_removed rfl rfl

theorem Sound.step (h : e.Sound) (c : Call) : (e.step c).2.Sound := h.of_effect (effect_step e c)

theorem Reachable.sound (h : e.Reachable) : e.Sound := by
  induction h with
  | start address =>
    refine ⟨?_, ?_⟩
    · intro id c hc
      cases hc
    · intro id c id' c' hc
      cases hc
  | call _ c ih => exact ih.step c
  | switch _ hs ih => exact ih.of_eq hs.1 hs.2.1

end HostAgent.Container.Engine
