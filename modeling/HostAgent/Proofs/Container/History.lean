import HostAgent.Proofs.Container.Engine

namespace HostAgent.Container

/-!
# Histories of the simulated engine

All that ever happens to a simulated engine are calls and switches. What is known of its containers
is what the history says of them: each was created by one call, which alone was given its
identifier, and it has the address that was set when it was last started, or none if it does not
run.
-/

def Call.succeeds : (c : Call) → c.Answer → Bool
  | .create _ => fun a : Except Error String => a.isOk
  | .inspect _ => fun a : Except Error Status => a.isOk
  | .ping | .start _ | .stop _ _ | .remove _ _ => fun a : Except Error Unit => a.isOk

/-- What is noted of a call. -/
def Call.noted : Call → List Call
  | .ping => []
  | c => [c]

namespace Engine

/-! ## What happens -/

variable {e e₀ : Engine} {x : Event} {tr : List Event} {id : String}

/-- An engine that has no containers, had no calls, and has anything set on it. -/
structure IsNew (e : Engine) : Prop where
  containers : e.containers = .empty
  calls : e.calls = []
  created : e.created = 0

/-- An engine comes about from another one by what happens to it. -/
inductive History (e₀ : Engine) : List Event → Engine → Prop
  | nil : History e₀ [] e₀
  | call {tr : List Event} {e : Engine} (h : History e₀ tr e) (c : Call) :
      History e₀ (tr ++ [.call c (e.step c).1]) (e.step c).2
  | switch {tr : List Event} {e : Engine} (h : History e₀ tr e) (s : Switch) :
      History e₀ (tr ++ [.switch s]) (e.set s)

/-- The identifiers that were given, in order. -/
def issued (tr : List Event) : List String := tr.filterMap Event.issued?

/-- The address that is set after something happened. -/
def Event.configured (address : String) : Event → String
  | .switch (.address a) => a
  | _ => address

def configured (address : String) (tr : List Event) : String := tr.foldl Event.configured address

/-- What happened before a container was last started. -/
def LastStarted (id : String) (tr before : List Event) : Prop :=
  ∃ after, tr = before ++ started id :: after ∧ started id ∉ after

/-- A container is as its history says, on an engine that had an address set at first. -/
structure Vouched (address : String) (tr : List Event) (id : String) (c : Simulated) : Prop where
  created : ∃ spec, .call (.create spec) (.ok id : Except Error String) ∈ tr ∧ c.name = spec.name
  stopped : c.running = false → c.address = ""
  running : c.running = true →
    ∃ before, LastStarted id tr before ∧ c.address = configured address before

theorem issued_concat (tr : List Event) (x : Event) :
    issued (tr ++ [x]) = issued tr ++ x.issued?.toList := by
  rw [issued, List.filterMap_append]
  congr 1

theorem configured_concat (address : String) (tr : List Event) (x : Event) :
    configured address (tr ++ [x]) = x.configured (configured address tr) :=
  List.foldl_concat ..

theorem lastStarted_concat (id : String) (tr : List Event) :
    LastStarted id (tr ++ [started id]) tr :=
  ⟨[], rfl, List.not_mem_nil⟩

theorem LastStarted.concat {before : List Event} (h : LastStarted id tr before)
    (hx : x ≠ started id) : LastStarted id (tr ++ [x]) before := by
  obtain ⟨after, rfl, hafter⟩ := h
  refine ⟨after ++ [x], by simp, ?_⟩
  rw [List.mem_append, List.mem_singleton]
  rintro (h | h)
  · exact hafter h
  · exact hx h.symm

/-- What happens to others leaves a container as its history says. -/
theorem Vouched.concat {address : String} {c : Simulated} (h : Vouched address tr id c)
    (hx : x ≠ started id) : Vouched address (tr ++ [x]) id c where
  created := by
    obtain ⟨spec, hspec, hname⟩ := h.created
    exact ⟨spec, List.mem_append_left _ hspec, hname⟩
  stopped := h.stopped
  running hc := by
    obtain ⟨before, hbefore, haddress⟩ := h.running hc
    exact ⟨before, hbefore.concat hx, haddress⟩

/-! ## One call -/

/-- A call leaves what is set as it was, and every call but a ping is noted, whatever it is
answered. -/
theorem step_notes (e : Engine) (c : Call) :
    (e.step c).2.address = e.address ∧ (e.step c).2.calls = e.calls ++ c.noted := by
  have hchange : ∀ (e : Engine) id f,
      (e.change id f).2.address = e.address ∧ (e.change id f).2.calls = e.calls := by
    intro e id f
    rw [change]
    split <;> exact ⟨rfl, rfl⟩
  cases c with
  | ping => exact ⟨rfl, (List.append_nil _).symm⟩
  | inspect id => exact ⟨rfl, rfl⟩
  | create spec =>
    rw [step, create]
    split <;> exact ⟨rfl, rfl⟩
  | start id =>
    rw [step, start]
    split
    · exact ⟨rfl, rfl⟩
    · exact hchange _ _ _
  | stop id grace => exact hchange _ _ _
  | remove id volumes =>
    rw [step, remove]
    split <;> exact ⟨rfl, rfl⟩

/-- What one call does to the containers and to the calls that are noted: a call that fails, or only
inspects, leaves all containers as they were, any other call all but its own, and a creation makes
one that was not there. -/
structure Contained (e : Engine) (c : Call) : Prop where
  failed : c.succeeds (e.step c).1 = false → (e.step c).2.containers = e.containers
  inspection : ∀ id, c = .inspect id → (e.step c).2.containers = e.containers
  others : ∀ id, c.id? ≠ some id → (Event.call c (e.step c).1).issued? ≠ some id →
    (e.step c).2.containers.get? id = e.containers.get? id
  fresh : ∀ id, (Event.call c (e.step c).1).issued? = some id → e.containers.get? id = none
  noted : (e.step c).2.calls = e.calls ++ c.noted

theorem contained_step (he : e.Sound) (c : Call) : Contained e c := by
  have heffect := effect_step e c
  have hnoted := (step_notes e c).2
  cases hstep : e.step c with
  | mk a e' =>
    rw [hstep] at heffect hnoted
    obtain ⟨containers, calls, created, address, failStarts, failInspects⟩ := e'
    refine ⟨?_, ?_, ?_, ?_, by rw [hstep]; exact hnoted⟩ <;> rw [hstep] <;> dsimp only at heffect ⊢
    · cases heffect with
      | none => exact fun _ => rfl
      | created | started | stopped | removed => exact nofun
    · cases heffect with
      | none => exact fun _ _ => rfl
      | created | started | stopped | removed => exact nofun
    · intro id hid hissued
      cases heffect with
      | none => rfl
      | created => exact SortedMap.get?_insert_ne _ _ fun h => hissued (congrArg some h.symm)
      | started | stopped => exact SortedMap.get?_insert_ne _ _ fun h => hid (congrArg some h.symm)
      | removed => exact SortedMap.get?_erase_ne _ fun h => hid (congrArg some h.symm)
    · intro id hid
      cases heffect with
      | none _ hissued =>
        rw [hissued] at hid
        cases hid
      | created =>
        cases hid
        exact he.get?_next
      | started | stopped | removed => cases hid

/-! ## Any number of events -/

/-- What a history says of an engine that was new when it began. -/
structure Coherent (address : String) (tr : List Event) (e : Engine) : Prop where
  /-- No two containers have one name. -/
  distinct : ∀ id c id' c', e.containers.get? id = some c → e.containers.get? id' = some c' →
    c.name = c'.name → id = id'
  /-- No identifier is given twice, whatever became of its container. -/
  once : (issued tr).Nodup
  vouched : ∀ id c, e.containers.get? id = some c → Vouched address tr id c

/-- The invariant of a history. -/
structure Consistent (address : String) (tr : List Event) (e : Engine) : Prop where
  sound : e.Sound
  setting : e.address = configured address tr
  /-- The identifiers that were given have numbers up to that of the last creation. -/
  given : ∀ id ∈ issued tr, ∃ k ≤ e.created, id = idOf k
  once : (issued tr).Nodup
  vouched : ∀ id c, e.containers.get? id = some c → Vouched address tr id c

variable {address : String}

theorem Consistent.switch (h : Consistent address tr e) (s : Switch) :
    Consistent address (tr ++ [.switch s]) (e.set s) := by
  have hcontainers : (e.set s).containers = e.containers := by cases s <;> rfl
  have hcreated : (e.set s).created = e.created := by cases s <;> rfl
  have hissued : issued (tr ++ [.switch s]) = issued tr := by
    rw [issued_concat]
    exact List.append_nil _
  refine ⟨h.sound.of_eq hcontainers hcreated, ?_, ?_, ?_, ?_⟩
  · rw [configured_concat, ← h.setting]
    cases s <;> rfl
  · rw [hissued, hcreated]
    exact h.given
  · rw [hissued]
    exact h.once
  · rw [hcontainers]
    exact fun id c hc => (h.vouched id c hc).concat nofun

/-- An identifier that is given is a new one. -/
theorem Consistent.given_concat (h : Consistent address tr e) {m : SortedMap Simulated} {n : Nat}
    (hx : Effect e x m n) :
    (∀ id ∈ issued (tr ++ [x]), ∃ k ≤ n, id = idOf k) ∧ (issued (tr ++ [x])).Nodup := by
  rw [issued_concat]
  cases hx with
  | none _ hissued =>
    rw [hissued, Option.toList_none, List.append_nil]
    exact ⟨h.given, h.once⟩
  | started | stopped | removed =>
    refine ⟨?_, ?_⟩
    · exact fun id hid => h.given id (by simpa [Event.issued?, started] using hid)
    · simpa [Event.issued?, started] using h.once
  | created =>
    have hnew : idOf (e.created + 1) ∉ issued tr := by
      intro hmem
      obtain ⟨k, hk, hid⟩ := h.given _ hmem
      have := idOf_injective hid
      omega
    refine ⟨?_, List.nodup_append.mpr ⟨h.once, List.pairwise_singleton .., ?_⟩⟩
    · intro id hid
      rcases List.mem_append.mp hid with hid | hid
      · obtain ⟨k, hk, rfl⟩ := h.given id hid
        exact ⟨k, Nat.le_succ_of_le hk, rfl⟩
      · exact ⟨e.created + 1, Nat.le_refl _, List.mem_singleton.mp hid⟩
    · rintro id hid _ hmem rfl
      rw [List.mem_singleton.mp hmem] at hid
      exact hnew hid

/-- Whatever a call makes of a container is what the history says of it from then on. -/
theorem Consistent.vouched_concat (h : Consistent address tr e) {m : SortedMap Simulated} {n : Nat}
    (hx : Effect e x m n) (id : String) (c : Simulated) (hc : m.get? id = some c) :
    Vouched address (tr ++ [x]) id c := by
  cases hx with
  | none hstarted => exact (h.vouched id c hc).concat (hstarted id)
  | created hname =>
    rw [SortedMap.get?_insert] at hc
    split at hc
    next hid =>
      cases hc
      subst hid
      exact ⟨⟨_, List.mem_append_right _ List.mem_cons_self, rfl⟩, fun _ => rfl, nofun⟩
    next => exact (h.vouched id c hc).concat nofun
  | @started i old hold =>
    rw [SortedMap.get?_insert] at hc
    split at hc
    next hid =>
      cases hc
      subst hid
      obtain ⟨spec, hspec, hname⟩ := (h.vouched id old hold).created
      refine ⟨⟨spec, List.mem_append_left _ hspec, hname⟩, nofun, fun _ => ?_⟩
      exact ⟨tr, lastStarted_concat id tr, h.setting⟩
    next hid =>
      refine (h.vouched id c hc).concat fun heq => ?_
      cases heq
      exact hid rfl
  | @stopped i grace old hold =>
    rw [SortedMap.get?_insert] at hc
    split at hc
    next hid =>
      cases hc
      subst hid
      obtain ⟨spec, hspec, hname⟩ := (h.vouched id old hold).created
      exact ⟨⟨spec, List.mem_append_left _ hspec, hname⟩, fun _ => rfl, nofun⟩
    next => exact (h.vouched id c hc).concat nofun
  | removed =>
    rw [SortedMap.get?_erase] at hc
    split at hc
    next => cases hc
    next => exact (h.vouched id c hc).concat nofun

theorem Consistent.call (h : Consistent address tr e) (c : Call) :
    Consistent address (tr ++ [.call c (e.step c).1]) (e.step c).2 := by
  obtain ⟨hgiven, honce⟩ := h.given_concat (effect_step e c)
  refine ⟨h.sound.step c, ?_, hgiven, honce, h.vouched_concat (effect_step e c)⟩
  rw [(step_notes e c).1, h.setting, configured_concat]
  rfl

theorem consistent_of_history (hnew : e₀.IsNew) (h : History e₀ tr e) :
    Consistent e₀.address tr e := by
  induction h with
  | nil =>
    have hnone : ∀ id c, e₀.containers.get? id ≠ some c := by
      rw [hnew.containers]
      exact nofun
    exact ⟨⟨fun id c hc => absurd hc (hnone id c), fun id c _ _ hc => absurd hc (hnone id c)⟩, rfl,
      nofun, List.nodup_nil, fun id c hc => absurd hc (hnone id c)⟩
  | call _ c ih => exact ih.call c
  | switch _ s ih => exact ih.switch s

theorem step_inspect_ok {st : Status}
    (h : (e.step (.inspect id)).1 = (.ok st : Except Error Status)) :
    ∃ c, e.containers.get? id = some c ∧ st = ⟨id, "/" ++ c.name, c.address, c.running⟩ := by
  change e.inspect id = .ok st at h
  rw [inspect] at h
  split at h
  · cases h
  · split at h
    next => cases h
    next c hc =>
      cases h
      exact ⟨c, hc, rfl⟩

/-- After whatever happened to an engine that was new, its containers have names of their own, and
each is as the history says: it was created by one call, whose identifier no other call was given
before or since, it reports an address only if it runs, and then the one that was set when it was
last started. What is done next changes one container at most, and none if it fails. -/
theorem histories_account_for_containers (hnew : e₀.IsNew) (h : History e₀ tr e) :
    Coherent e₀.address tr e ∧ (∀ c, Contained e c) ∧
      ∀ id st, (e.step (.inspect id)).1 = (.ok st : Except Error Status) →
        ∃ c, e.containers.get? id = some c ∧ st = ⟨id, "/" ++ c.name, c.address, c.running⟩ := by
  have hconsistent := consistent_of_history hnew h
  exact ⟨⟨hconsistent.sound.distinct, hconsistent.once, hconsistent.vouched⟩,
    contained_step hconsistent.sound, fun _ _ => step_inspect_ok⟩

/-- A container is removed and its name used again: the second one has an identifier of its own, and
the address that was set before it was started. -/
theorem histories_account_for_containers_renewed :
    ∃ tr e, History default tr e ∧ issued tr = [idOf 1, idOf 2] ∧
      e.containers.get? (idOf 1) = none ∧
      e.containers.get? (idOf 2) = some ⟨"r1", "10.0.0.9", true⟩ ∧
      Coherent (default : Engine).address tr e := by
  let spec : Spec := ⟨"r1", "replica:1", [], [], [], false, []⟩
  have hnew : IsNew default := ⟨rfl, rfl, rfl⟩
  have hbegin : History default [] default := .nil
  have hfirst := (hbegin.call (.create spec)).call (.start (idOf 1))
  have hgone := (hfirst.switch (.address "10.0.0.9")).call (.remove (idOf 1) true)
  have h := (hgone.call (.create spec)).call (.start (idOf 2))
  exact ⟨_, _, h, by decide +kernel, by decide +kernel, by decide +kernel,
    (histories_account_for_containers hnew h).1⟩

end Engine

end HostAgent.Container
