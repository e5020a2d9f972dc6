import HostAgent.Proofs.Store.MapServer
import HostAgent.Proofs.Store.Mirrors

namespace HostAgent.Store

/-!
# The store behind HTTP as the store in memory

On a server of keys that starts empty, orders come to what they come to on an empty store in memory,
up to the indexes: the server gives other ones, in the same order.
-/

open Keys Etcd

variable {ρ : Nat → Nat} {R : Set String} {endpoints : List Http.Endpoint}

/-- The store behind HTTP, in front of a server of keys. -/
def Etcd.world (K : KeyServer endpoints) (c : Call) (s : K.State) : c.Answer × K.State :=
  (answer (clusterOf endpoints) c).run K.respond s

/-- The counter never goes back. -/
theorem Etcd.index_le_perform (K : KeyServer endpoints) (orders : List Order) (seen : List Nat)
    (s : K.State) : (K.tree s).index ≤ (K.tree (perform (world K) orders seen s).2).index := by
  let P (s' : K.State) : Prop := (K.tree s).index ≤ (K.tree s').index
  have hrespond : ∀ r s', P s' → P (K.respond r s').2 := fun r s' hs =>
    Nat.le_trans hs (K.grows r s')
  have hworld : ∀ c s', P s' → P (world K c s').2 := fun c s' hs =>
    Task.run_invariant (I := Http.interface) hrespond (answer (clusterOf endpoints) c) hs
  exact perform_invariant hworld orders seen (Nat.le_refl _)

variable {K : KeyServer endpoints}

/-- Where a request counts for one change at most, orders count for one change each at most. -/
theorem Etcd.index_perform_le (hup : ∃ e ∈ endpoints, K.up e = true) (hR : Apart R)
    (hone : ∀ r s, (K.tree (K.respond r s).2).index ≤ (K.tree s).index + 1) {orders : List Order}
    (horders : ∀ o ∈ orders, o.Fits R) (seen : List Nat) (s : K.State) :
    (K.tree (perform (world K) orders seen s).2).index ≤ (K.tree s).index + orders.length := by
  induction orders generalizing seen s with
  | nil => exact Nat.le_refl _
  | cons o orders ih =>
    have hrest := ih fun o ho => horders o (List.mem_cons_of_mem _ ho)
    rw [List.length_cons]
    cases ho : o.call? seen with
    | none =>
      rw [perform_cons_none ho]
      have hle := hrest seen s
      omega
    | some c =>
      rw [perform_cons_some ho]
      have hle := hrest (seen ++ (Reply.of c (world K c s).1).indexes) (world K c s).2
      have hc : IsKey c.key := (horders o List.mem_cons_self seen c ho).isKey hR
      obtain ⟨response, s', hsend, e, -, -, r, s₁, -, htree, hrespond⟩ :=
        send_run (K := K) hc hup s
      have hstate : (world K c s).2 = s' := congrArg Prod.snd (answer_run hsend)
      have hindex := hone r s₁
      rw [hrespond, htree] at hindex
      rw [hstate] at hle ⊢
      dsimp only at hindex hle ⊢
      omega

/-- Mirrors come to the same over all orders. The induction is on the orders; an index that has been
answered keeps its name, and so the conditions of later orders are on the same writes. -/
theorem Mirrors.perform (hup : ∃ e ∈ endpoints, K.up e = true) (hR : Apart R)
    {orders : List Order} (horders : ∀ o ∈ orders, o.Fits R) {m : Memory} {s : K.State}
    (h : Mirrors R ρ m (K.tree s)) {seen : List Nat} (hseen : ∀ i ∈ seen, i ≤ m.index)
    (hword : (K.tree (perform (Etcd.world K) orders (seen.map ρ) s).2).index < wordLimit) :
    ∃ ρ', StrictMono ρ' ∧ (∀ i ≤ m.index, ρ' i = ρ i) ∧
      (perform (Etcd.world K) orders (seen.map ρ) s).1 =
        (perform Memory.step orders seen m).1.map (Reply.rename ρ') := by
  induction orders generalizing ρ m s seen with
  | nil => exact ⟨ρ, h.mono, fun _ _ => rfl, rfl⟩
  | cons o orders ih =>
    have horders' : ∀ o ∈ orders, o.Fits R := fun o ho => horders o (List.mem_cons_of_mem _ ho)
    cases ho : o.call? seen with
    | none =>
      have ho' : o.call? (seen.map ρ) = none := by rw [Order.call?_map, ho]; rfl
      rw [perform_cons_none ho'] at hword ⊢
      rw [perform_cons_none ho]
      exact ih horders' h hseen hword
    | some c =>
      have ho' : o.call? (seen.map ρ) = some (c.rename ρ) := by rw [Order.call?_map, ho]; rfl
      have hc : c.Fits R := horders o List.mem_cons_self seen c ho
      rw [perform_cons_some ho'] at hword ⊢
      rw [perform_cons_some ho]
      obtain ⟨⟨a, s'⟩, hrun⟩ : ∃ p, Etcd.world K (c.rename ρ) s = p := ⟨_, rfl⟩
      rw [hrun] at hword ⊢
      obtain ⟨b, htakes, rfl⟩ := answer_takes (hc.rename.isKey hR) hup
        (h.admits hR hc.rename) h.bounded_tree hrun
        (Nat.lt_of_le_of_lt (Etcd.index_le_perform K orders _ s') hword)
      obtain ⟨ρ₁, h₁, hold₁, hreply⟩ := h.step hR hc htakes
      dsimp only at hword h₁ hreply ⊢
      have hgiven := Memory.indexes_le_index h.bounded c
      have hmap : seen.map ρ = seen.map ρ₁ :=
        List.map_congr_left fun i hi => (hold₁ i (hseen i hi)).symm
      have hseen₁ : ∀ i ∈ seen ++ (Reply.of c (m.step c).1).indexes, i ≤ (m.step c).2.index := by
        intro i hi
        rcases List.mem_append.mp hi with hi | hi
        · exact Nat.le_trans (hseen i hi) (Memory.index_le_index_step c m)
        · exact hgiven i hi
      rw [hreply, Reply.indexes_rename, hmap, ← List.map_append] at hword
      rw [hreply, Reply.indexes_rename, hmap, ← List.map_append]
      obtain ⟨ρ₂, hmono, hold₂, hrest⟩ := ih horders' h₁ hseen₁ hword
      refine ⟨ρ₂, hmono, fun i hi => ?_, ?_⟩
      · rw [hold₂ i (Nat.le_trans hi (Memory.index_le_index_step c m)), hold₁ i hi]
      · rw [List.map_cons, hrest, Reply.rename_congr fun i hi => (hold₂ i (hgiven i hi)).symm]

/-- Orders on records that are kept apart come to the same on the store behind HTTP as on the store
in memory, all of them, whatever the texts: the same entries in the same order, the same conflicts,
and indexes that are in the same order. The server has nothing at first, at least one endpoint is
up, and the counter stays within sixty-four bits. -/
theorem etcd_refines_memory (K : KeyServer endpoints) (hup : ∃ e ∈ endpoints, K.up e = true)
    (hR : Apart R) {orders : List Order} (horders : ∀ o ∈ orders, o.Fits R) {s : K.State}
    (hempty : ∀ key, (K.tree s).find key = none)
    (hword : (K.tree (perform (Etcd.world K) orders [] s).2).index < wordLimit) :
    ∃ ρ, StrictMono ρ ∧
      (perform (Etcd.world K) orders [] s).1 =
        (perform Memory.step orders [] Memory.empty).1.map (Reply.rename ρ) := by
  have hseen : ∀ i ∈ ([] : List Nat), i ≤ Memory.empty.index := nofun
  obtain ⟨ρ, hmono, -, hreplies⟩ :=
    (Mirrors.empty R hempty).perform hup hR horders hseen hword
  exact ⟨ρ, hmono, hreplies⟩

/-- Two versions, one too late, and a deletion. -/
def turns : List Order :=
  [.create "/v/a" "x&y", .compareAndSet "/v/a" "é" 0, .compareAndSet "/v/a" "z" 0, .list "/v",
    .delete "/v/a", .get "/v/a"]

theorem etcd_refines_memory_secondUp :
    ∃ ρ, StrictMono ρ ∧ (perform (Etcd.world secondUp) turns [] (Shelf.empty 3)).1 =
      [.written (ρ 1), .written (ρ 2), .failed (.conflict "/v/a"),
        .listed [("/v/a", ⟨"é", ρ 2⟩)], .deleted true, .found none] := by
  have hup : ∃ e ∈ [firstEndpoint, secondEndpoint], secondUp.up e = true :=
    ⟨secondEndpoint, by simp, rfl⟩
  have hR : Apart {"/v/a"} := by
    refine ⟨?_, ?_⟩
    · rintro key rfl
      exact ⟨["v", "a"], by decide, by decide, by decide⟩
    · rintro dir rfl key rfl
      decide
  have hdir : IsKey "/v" := ⟨["v"], by decide, by decide, by decide⟩
  have horders : ∀ o ∈ turns, o.Fits {"/v/a"} := by
    simp [turns, Order.Fits, Order.call?, Call.Fits, hdir]
  have hword : (secondUp.tree (perform (Etcd.world secondUp) turns [] (Shelf.empty 3)).2).index <
      wordLimit :=
    Nat.lt_of_le_of_lt
      (Etcd.index_perform_le hup hR Shelf.index_server_le horders [] (Shelf.empty 3)) (by decide)
  obtain ⟨ρ, hmono, hreplies⟩ := etcd_refines_memory secondUp hup hR horders (fun _ => rfl) hword
  have hmemory : (perform Memory.step turns [] Memory.empty).1 =
      [.written 1, .written 2, .failed (.conflict "/v/a"), .listed [("/v/a", ⟨"é", 2⟩)],
        .deleted true, .found none] := by
    decide +kernel
  rw [hmemory] at hreplies
  exact ⟨ρ, hmono, hreplies⟩

end HostAgent.Store
