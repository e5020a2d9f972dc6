import HostAgent.Identity
import HostAgent.Proofs.Store.Table

namespace HostAgent

/-!
# Registered hosts

Hosts register in the shared store and are never taken out of it. Each of them stands under its own
identifier, so a host that was listed is found there later on, also if others register in between,
or the host itself does so anew.
-/

open Store

namespace Identity

theorem run_inl_withStore {α : Type} (t : Task interface α) (n : Machine) (m : Memory) :
    (t.inl : Task (interface.sum Store.interface) α).run Machine.stepWithStore (n, m) =
      ((t.run Machine.step n).1, (t.run Machine.step n).2, m) := by
  induction t generalizing n with
  | done a => rfl
  | ask c next ih => exact ih _ _

theorem register_run (s : Space) (dir address : String) :
    (register s dir address).run =
      (load dir address).run.inl.bind fun
        | .error e => .done (.error (.identity e))
        | .ok x =>
          .ask (I := interface.sum Store.interface)
            (.inr (Store.Call.set (s.hostKey x.uuid) (Record.text x))) fun a =>
              .done (((Space.dropIndex a).mapError (.store "register" (s.hostKey x.uuid))).map
                fun _ => x) := by
  rw [register, ExceptT.run_bind]
  change Task.bind (Task.bind (load dir address).run.inl _) _ = _
  rw [Task.bind_assoc]
  congr 1
  funext r
  match r with
  | .error e => rfl
  | .ok x =>
    change (ExceptT.run (ExceptT.mk (Task.bind (Task.inr (s.setHost x).run) _) >>= _)) = _
    rw [Space.setHost, Space.put_run]
    refine congrArg (Task.ask (I := interface.sum Store.interface) _) (funext fun a => ?_)
    match a with
    | .error f => rfl
    | .ok i => rfl

/-- A registration that succeeds has written the record of the host, and one that fails nothing. -/
theorem run_register (s : Space) (dir address : String) (n : Machine) (m : Memory) :
    (∃ x n', (register s dir address).run.run Machine.stepWithStore (n, m) =
      (.ok x, n', m.write (s.hostKey x.uuid) (Record.text x))) ∨
    ∃ e n', (register s dir address).run.run Machine.stepWithStore (n, m) = (.error e, n', m) := by
  rw [register_run, Task.run_bind, run_inl_withStore]
  cases (load dir address).run.run Machine.step n with
  | mk r n' =>
    cases r with
    | error e => exact .inr ⟨_, n', rfl⟩
    | ok x => exact .inl ⟨x, n', rfl⟩

end Identity

namespace Store.Space

variable {s : Space} {m m' : Memory} {hosts : SortedMap Host} {x : Host}

/-- A store comes about from another one by registrations of hosts whose identifiers have no
slash. -/
inductive Registers (s : Space) (m : Memory) : Memory → Prop
  | refl : Registers s m m
  | setHost {m' : Memory} (h : Registers s m m') (x : Host) (hx : '/' ∉ x.uuid.toList) :
      Registers s m ((s.setHost x).run.run Memory.step m').2
  | register {m' : Memory} (h : Registers s m m') (dir address : String) (n : Identity.Machine)
      (hx : ∀ x n' m'', (Identity.register s dir address).run.run Identity.Machine.stepWithStore
        (n, m') = (.ok x, n', m'') → '/' ∉ x.uuid.toList) :
      Registers s m ((Identity.register s dir address).run.run Identity.Machine.stepWithStore
        (n, m')).2.2

theorem Registers.trans {m'' : Memory} (h : s.Registers m m') (h' : s.Registers m' m'') :
    s.Registers m m'' := by
  induction h' with
  | refl => exact h
  | setHost _ x hx ih => exact ih.setHost x hx
  | register _ dir address n hx ih => exact ih.register dir address n hx

/-- The hosts that are registered in a store, each under its own identifier. -/
structure Registry (s : Space) (m : Memory) (hosts : SortedMap Host) : Prop where
  stores : m.Stores s.hostKey hosts
  named : ∀ u h, hosts.get? u = some h → h.uuid = u
  direct : ∀ u h, hosts.get? u = some h → '/' ∉ u.toList

namespace Registry

theorem empty (s : Space) : s.Registry .empty .empty where
  stores := fun _ => rfl
  named := nofun
  direct := nofun

theorem write (h : s.Registry m hosts) (hx : '/' ∉ x.uuid.toList) :
    s.Registry (m.write (s.hostKey x.uuid) (Record.text x)) (hosts.insert x.uuid x) where
  stores := h.stores.write s.hostKey_injective x.uuid x
  named := by
    intro u y hy
    rw [SortedMap.get?_insert] at hy
    split at hy
    next hu =>
      cases hy
      exact hu.symm
    next => exact h.named u y hy
  direct := by
    intro u y hy
    rw [SortedMap.get?_insert] at hy
    split at hy
    next hu => exact hu ▸ hx
    next => exact h.direct u y hy

/-- A registration takes no host away: where there was a record there is one afterwards. -/
theorem registers (h : s.Registry m hosts) (hm : s.Registers m m') :
    ∃ hosts', s.Registry m' hosts' ∧
      ∀ u, (hosts.get? u).isSome = true → (hosts'.get? u).isSome = true := by
  have hgrow : ∀ {m₁ hosts₁} {x : Host}, s.Registry m₁ hosts₁ → '/' ∉ x.uuid.toList →
      (∀ u, (hosts.get? u).isSome = true → (hosts₁.get? u).isSome = true) →
      ∃ hosts', s.Registry (m₁.write (s.hostKey x.uuid) (Record.text x)) hosts' ∧
        ∀ u, (hosts.get? u).isSome = true → (hosts'.get? u).isSome = true := by
    intro m₁ hosts₁ x h₁ hx hold
    refine ⟨_, h₁.write hx, fun u hu => ?_⟩
    rw [SortedMap.get?_insert]
    split
    · rfl
    · exact hold u hu
  induction hm with
  | refl => exact ⟨hosts, h, fun _ hu => hu⟩
  | setHost _ x hx ih =>
    obtain ⟨hosts₁, h₁, hold⟩ := ih
    rw [Space.setHost, run_put]
    exact hgrow h₁ hx hold
  | @register m₁ _ dir address n hx ih =>
    obtain ⟨hosts₁, h₁, hold⟩ := ih
    rcases Identity.run_register s dir address n m₁ with ⟨x, n', hrun⟩ | ⟨e, n', hrun⟩
    · have hslash := hx x n' _ hrun
      rw [hrun]
      exact hgrow h₁ hslash hold
    · rw [hrun]
      exact ⟨hosts₁, h₁, hold⟩

theorem of_registers (h : s.Registers .empty m) : ∃ hosts, s.Registry m hosts := by
  obtain ⟨hosts, hregistry, -⟩ := (empty s).registers h
  exact ⟨hosts, hregistry⟩

theorem found (h : s.Registry m hosts) (u : String) :
    Space.found (.ok (m.get? (s.hostKey u))) = .ok (hosts.get? u) :=
  found_of_map (h.stores u)

theorem get?_eq_none_iff (h : s.Registry m hosts) (u : String) :
    m.get? (s.hostKey u) = none ↔ hosts.get? u = none := by
  have hstores := h.stores u
  rw [← Option.map_eq_none_iff (f := Entry.value), hstores, Option.map_eq_none_iff]

/-- No host is left out of a listing, as all identifiers are without a slash. -/
theorem listed (h : s.Registry m hosts) :
    fetchedAll (.ok (m.children s.hostsDir)) = .ok hosts.values := by
  have hdirect : hosts.direct = hosts := by
    ext1 u
    refine Option.ext fun y => ?_
    rw [SortedMap.get?_eq_some_iff, SortedMap.mem_direct]
    exact ⟨fun hy => hy.1, fun hy => ⟨hy, h.direct u y hy⟩⟩
  have hchildren : fetchedAll (.ok (m.children s.hostsDir)) = .ok hosts.direct.values := by
    apply Memory.Stores.fetchedAll_children
    rw [below_hostsDir]
    exact h.stores
  rw [hchildren, hdirect]

/-- A host that is listed is found under its identifier. -/
theorem get?_of_listed (h : s.Registry m hosts) (hx : x ∈ hosts.values) :
    hosts.get? x.uuid = some x := by
  obtain ⟨⟨u, y⟩, hmem, rfl⟩ := List.mem_map.mp hx
  have hget := SortedMap.get?_eq_some_iff.mpr hmem
  rw [h.named u y hget]
  exact hget

end Registry

end Store.Space

end HostAgent
