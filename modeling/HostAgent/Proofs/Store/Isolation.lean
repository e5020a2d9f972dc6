import HostAgent.Proofs.Store.Lookups
import HostAgent.Proofs.Store.UpToIndexes
import HostAgent.Proofs.Text.Cutting

namespace HostAgent.Store.Space

/-!
# Spaces beside each other

The records of several clusters may stand in one store, each cluster with a root of its own. If the
roots are apart, then what the clients of one space are shown is what they would be shown without
the clients of the other, in every interleaving of their calls. Only the indexes that the store
counts for both of them give the others away, and no operation shows an index.
-/

open Interleaving

variable {M : Interface} {s s' : Space} {p q : String}

/-! ## Operations up to indexes -/

section Shown

variable {β : Type} [Record β]

@[simp] theorem found_blindRead (a : Except Error (Option Entry)) :
    found (α := β) (blindRead a) = found a := by
  rcases a with f | _ | e
  · rfl
  · rfl
  · change found (.ok (some e.blind)) = found (.ok (some e))
    simp only [found, fetched, Entry.blind]
    cases decode (α := β) e.value <;> rfl

@[simp] theorem fetchedAll_blindList (a : Except Error (List (String × Entry))) :
    fetchedAll (α := β) (blindList a) = fetchedAll a := by
  rcases a with f | l
  · rfl
  · change (l.map fun e => (e.1, e.2.blind)).mapM (fun e => decode (α := β) e.2.value) =
      l.mapM fun e => decode e.2.value
    rw [List.mapM_map]
    rfl

@[simp] theorem dropIndex_blindWrite (a : Except Error Nat) :
    dropIndex (blindWrite a) = dropIndex a := by
  cases a <;> rfl

end Shown

section Changes

variable {R : String → Prop} {ρ : Nat → Nat → Prop} {key : String}
variable {mutate : Volume → Task M Volume} {n : Nat}

theorem alike_afterWrite {i j : Nat} {text : String} {v : Volume} {b b' : Except Error Nat}
    (hnext : Alike R ρ (changeRounds key mutate n).run (changeRounds key mutate n).run)
    (h : SameAnswer ρ (.compareAndSet key text i) (.compareAndSet key text j) b b') :
    Alike R ρ (afterWrite key mutate n v b) (afterWrite key mutate n v b') := by
  rcases h.compareAndSet_cases with ⟨f, rfl, rfl⟩ | ⟨k, k', rfl, rfl⟩
  · rw [afterWrite]
    split
    · exact hnext
    · exact .done _
  · exact .done _

theorem alike_afterRead {a a' : Except Error (Option Entry)} (hkey : R key)
    (hnext : ∀ σ, Alike R σ (changeRounds key mutate n).run (changeRounds key mutate n).run)
    (h : SameAnswer ρ (.get key) (.get key) a a') :
    Alike R ρ (afterRead key mutate n a) (afterRead key mutate n a') := by
  rcases h.get_cases with ⟨f, rfl, rfl⟩ | ⟨rfl, rfl⟩ | ⟨value, i, j, rfl, rfl, hij⟩
  · exact .done _
  · exact .done _
  simp only [afterRead]
  cases decode (α := Volume) value with
  | error f => exact .done _
  | ok u =>
    refine (Alike.inr (mutate u)).bind fun σ hσ v => ?_
    exact .shared hkey (.compareAndSet key _ (hσ _ _ hij)) fun τ _ b b' hb =>
      alike_afterWrite (hnext τ) hb

/-- A change hands the index that it read back with its write, and does nothing else with it. -/
theorem alike_changeRounds (hkey : R key) (n : Nat) (ρ : Nat → Nat → Prop) :
    Alike R ρ (changeRounds key mutate n).run (changeRounds key mutate n).run := by
  induction n generalizing ρ with
  | zero => exact .done _
  | succ n ih =>
    rw [changeRounds_succ]
    exact .shared hkey (.same rfl) fun σ _ a a' ha => alike_afterRead hkey ih ha

end Changes

/-! ## The keys of a space -/

/-- All that stands below the root of a space. -/
def Owns (s : Space) (key : String) : Prop := ∃ u, key = s.root ++ "/" ++ u

theorem owns_append (s : Space) {t u : String} (ht : t = "/" ++ u) (v : String) :
    s.Owns (s.root ++ t ++ v) :=
  ⟨u ++ v, by simp only [ht, String.append_assoc]⟩

theorem owns_hostKey (s : Space) (uuid : String) : s.Owns (s.hostKey uuid) :=
  s.owns_append (u := "hosts/") (by decide) uuid

theorem owns_volumeKey (s : Space) (name : String) : s.Owns (s.volumeKey name) :=
  s.owns_append (u := "volumes/") (by decide) name

theorem owns_settingsKey (s : Space) : s.Owns s.settingsKey := by
  have howns := s.owns_append (u := "settings") rfl ""
  rwa [String.append_empty] at howns

theorem owns_hosts (s : Space) (u : String) : s.Owns (Memory.below s.hostsDir ++ u) := by
  rw [below_hostsDir]
  exact s.owns_hostKey u

theorem owns_volumes (s : Space) (u : String) : s.Owns (Memory.below s.volumesDir ++ u) := by
  rw [below_volumesDir]
  exact s.owns_volumeKey u

section Kinds

variable {ρ : Nat → Nat → Prop} {β : Type} [Record β] {key dir : String}

theorem alike_put (b : β) (hkey : s.Owns key) :
    Alike s.Owns ρ (Change.ofOp (M := M) (put key b)).run (Change.ofOp (put key b)).run :=
  .ofOp (c := .set key (Record.text b)) (h := dropIndex) (put_run key b) dropIndex_blindWrite hkey
    rfl

theorem alike_fetch (hkey : s.Owns key) {op : Op (Option β)}
    (hop : op.run = .ask (.get key) fun a => .done (found a)) :
    Alike s.Owns ρ (Change.ofOp (M := M) op).run (Change.ofOp op).run :=
  .ofOp (c := .get key) (h := found) hop found_blindRead hkey rfl

theorem alike_fetchAll (hdir : ∀ u, s.Owns (Memory.below dir ++ u)) :
    Alike s.Owns ρ (Change.ofOp (M := M) (fetchAll (α := β) dir)).run
      (Change.ofOp (fetchAll dir)).run :=
  .ofOp (c := .list dir) (h := fetchedAll) (fetchAll_run dir) fetchedAll_blindList hdir rfl

end Kinds

/-- No operation goes beyond its space, and none shows an index. -/
theorem alike_operation (s : Space) (o : Operation M) (ρ : Nat → Nat → Prop) :
    Alike s.Owns ρ (o.change s).run (o.change s).run := by
  cases o with
  | setHost h => exact alike_put h (s.owns_hostKey h.uuid)
  | getHost uuid => exact alike_fetch (s.owns_hostKey uuid) (fetch_map_run _)
  | listHosts => exact alike_fetchAll s.owns_hosts
  | createVolume v =>
    exact .ofOp (c := .create _ _) (h := dropIndex) (createVolume_run s v) dropIndex_blindWrite
      (s.owns_volumeKey v.name) rfl
  | setVolume v => exact alike_put v (s.owns_volumeKey v.name)
  | getVolume name => exact alike_fetch (s.owns_volumeKey name) (fetch_map_run _)
  | listVolumes => exact alike_fetchAll s.owns_volumes
  | deleteVolume name =>
    exact .ofOp (c := .delete _) (h := id) (deleteVolume_run s name) (fun _ => rfl)
      (s.owns_volumeKey name) rfl
  | changeVolume name mutate => exact alike_changeRounds (s.owns_volumeKey name) maxRounds ρ
  | getSettings => exact alike_fetch s.owns_settingsKey (fetch_map_run _)
  | setSettings x => exact alike_put x s.owns_settingsKey

theorem alike_program {α : Type} (s : Space) (t : Task (operations M) α) (ρ : Nat → Nat → Prop) :
    Alike s.Owns ρ (s.program t) (s.program t) := by
  induction t generalizing ρ with
  | done a => exact .done a
  | ask o next ih => exact (alike_operation s o ρ).bind fun σ _ a => ih a σ

/-! ## Roots apart -/

/-- Two spaces with different roots, neither of which is below the other. -/
structure Apart (s s' : Space) : Prop where
  ne : s.root ≠ s'.root
  not_above : ∀ u, u ≠ "" → s'.root ≠ s.root ++ "/" ++ u
  not_below : ∀ u, u ≠ "" → s.root ≠ s'.root ++ "/" ++ u

theorem Apart.symm (h : Apart s s') : Apart s' s := ⟨h.ne.symm, h.not_below, h.not_above⟩

/-- Where a root goes on as the keys of another one do, it is below it. -/
theorem Apart.not_append_slash (h : Apart s (.ofRoot q)) {w r r' : List Char}
    (hroot : (ofRoot q).root.toList = s.root.toList ++ w) (hw : '/' :: r = w ++ '/' :: r') :
    False := by
  rcases w with _ | ⟨c, w⟩
  · rw [List.append_nil] at hroot
    exact h.ne (String.toList_inj.mp hroot).symm
  obtain ⟨rfl, -⟩ := List.cons.inj hw
  have hroot' : (ofRoot q).root = s.root ++ "/" ++ String.ofList w := by
    rw [← String.toList_inj, hroot]
    simp
  refine h.not_above _ (fun hnil => ?_) hroot'
  rw [hnil, String.append_empty] at hroot'
  exact Text.trimSlashes_ne q s.root hroot'

/-- No key belongs to two spaces that are apart. -/
theorem Apart.not_owns (h : Apart (.ofRoot p) (.ofRoot q)) {key : String}
    (hp : (ofRoot p).Owns key) : ¬ (ofRoot q).Owns key := by
  rintro ⟨v, hv⟩
  obtain ⟨u, rfl⟩ := hp
  have hlist := congrArg String.toList hv
  simp only [String.toList_append, List.append_assoc] at hlist
  rcases List.append_eq_append_iff.mp hlist with ⟨w, hroot, hw⟩ | ⟨w, hroot, hw⟩
  · exact h.not_append_slash hroot hw
  · exact h.symm.not_append_slash hroot hw

/-! ## Runs -/

section Runs

variable {K ι α : Type} {d : K → Option ι} {R R' : String → Prop} {ρ σ : Nat → Nat → Prop}
variable {t u : Situation Memory.shared M K α} {t' u' : Situation Memory.shared M ι α}
variable {mo : Moment Memory.shared M K} {tr : List (Moment Memory.shared M K)} {k : K} {i : ι}
variable {x : Exchange (interface.sum M)}

/-- What is exchanged with some of the clients, without the indexes. -/
def seen (d : K → Option ι) (tr : List (Moment Memory.shared M K)) :
    List (ι × Exchange (interface.sum M)) :=
  tr.filterMap fun mo =>
    match mo.act with
    | .exchange k x => (d k).map fun i => (i, blind x)
    | .change => none

theorem seen_append (d : K → Option ι) (tr tr' : List (Moment Memory.shared M K)) :
    seen d (tr ++ tr') = seen d tr ++ seen d tr' := List.filterMap_append

theorem seen_singleton (hact : mo.act = .exchange k x) :
    seen d [mo] = ((d k).map fun i => (i, blind x)).toList := by
  simp only [seen, List.filterMap_cons, hact]
  cases d k <;> rfl

/-- Some of the clients and the region of the store that is theirs are the same in two situations,
of which the second has no other clients; in the first one the others keep to a region of their
own. -/
structure SameFor (R R' : String → Prop) (d : K → Option ι) (ρ : Nat → Nat → Prop)
    (t : Situation Memory.shared M K α) (t' : Situation Memory.shared M ι α) : Prop where
  state : SameOn R ρ t.state t'.state
  tasks : ∀ k i, d k = some i → Alike R ρ (t.tasks k) (t'.tasks i)
  others : ∀ k, d k = none → Alike R' ⊤ (t.tasks k) (t.tasks k)

theorem ne_of_left_out {l : K} (hl : d l = none) (hk : d k = some i) : l ≠ k := by
  rintro rfl
  rw [hl] at hk
  cases hk

/-- A step of a client that both situations have. -/
theorem SameFor.move (h : SameFor R R' d ρ t t')
    (hinj : ∀ k k' i, d k = some i → d k' = some i → k = k') (hk : d k = some i) (hle : ρ ≤ σ)
    (hstate : SameOn R σ u.state u'.state) (htask : Alike R σ (u.tasks k) (u'.tasks i))
    (hrest : ∀ l, l ≠ k → u.tasks l = t.tasks l) (hrest' : ∀ j, j ≠ i → u'.tasks j = t'.tasks j) :
    SameFor R R' d σ u u' where
  state := hstate
  tasks l j hl := by
    by_cases hlk : l = k
    · subst hlk
      obtain rfl := Option.some.inj (hk.symm.trans hl)
      exact htask
    · have hji : j ≠ i := by
        rintro rfl
        exact hlk (hinj l k j hl hk)
      rw [hrest l hlk, hrest' j hji]
      exact (h.tasks l j hl).mono hle
  others l hl := by
    rw [hrest l (ne_of_left_out hl hk)]
    exact h.others l hl

/-- A step of a client that is left out of the second situation. -/
theorem SameFor.skip (h : SameFor R R' d ρ t t') (hk : d k = none)
    (hstate : SameOn R ρ u.state t'.state) (htask : Alike R' ⊤ (u.tasks k) (u.tasks k))
    (hrest : ∀ l, l ≠ k → u.tasks l = t.tasks l) : SameFor R R' d ρ u t' where
  state := hstate
  tasks l j hl := by
    rw [hrest l (ne_of_left_out hk hl).symm]
    exact h.tasks l j hl
  others l hl := by
    by_cases hlk : l = k
    · subst hlk
      exact htask
    · rw [hrest l hlk]
      exact h.others l hl

variable [DecidableEq ι]

/-- A client that both situations have makes its call in both. -/
theorem SameFor.step_shared (h : SameFor R R' d ρ t t')
    (hinj : ∀ k k' i, d k = some i → d k' = some i → k = k') (hk : d k = some i) {c : Call}
    {next : (interface.sum M).Answer (.inl c) → Task (interface.sum M) α}
    (htask : t.tasks k = .ask (.inl c) next) (hstate : u.state = (Memory.step c t.state).2)
    (hself : u.tasks k = next (Memory.step c t.state).1)
    (hrest : ∀ l, l ≠ k → u.tasks l = t.tasks l) :
    ∃ σ tr' u', Run t' tr' u' ∧ SameFor R R' d σ u u' ∧
      seen some tr' = [(i, blind ⟨.inl c, (Memory.step c t.state).1⟩)] := by
  have halike := h.tasks k i hk
  rw [htask] at halike
  obtain ⟨c', next', htask', hin, hcall, hnext⟩ := halike.of_shared
  obtain ⟨σ, hle, hsame, hanswer⟩ := h.state.step hin hcall
  obtain ⟨u', hrun, hu', hi, hrest'⟩ := Run.exists_shared (S := Memory.shared)
    (a := (Memory.step c' t'.state).1) (x := (Memory.step c' t'.state).2) .nil htask' rfl
  refine ⟨σ, _, u', hrun, h.move hinj hk hle ?_ ?_ hrest hrest', ?_⟩
  · rw [hstate, hu']
    exact hsame
  · rw [hself, hi]
    exact hnext σ hle _ _ hanswer
  · rw [List.nil_append, seen_singleton rfl, hanswer.blind_eq]
    rfl

/-- What its own part answers it there, it can be answered here. -/
theorem SameFor.step_own (h : SameFor R R' d ρ t t')
    (hinj : ∀ k k' i, d k = some i → d k' = some i → k = k') (hk : d k = some i) {c : M.Call}
    {next : (interface.sum M).Answer (.inr c) → Task (interface.sum M) α} {a : M.Answer c}
    (htask : t.tasks k = .ask (.inr c) next) (hstate : u.state = t.state)
    (hself : u.tasks k = next a) (hrest : ∀ l, l ≠ k → u.tasks l = t.tasks l) :
    ∃ tr' u', Run t' tr' u' ∧ SameFor R R' d ρ u u' ∧
      seen some tr' = [(i, blind ⟨.inr c, a⟩)] := by
  have halike := h.tasks k i hk
  rw [htask] at halike
  obtain ⟨next', htask', hnext⟩ := halike.of_own
  obtain ⟨u', hrun, hu', hi, hrest'⟩ := Run.exists_own .nil htask' a
  refine ⟨_, u', hrun, h.move hinj hk le_rfl ?_ ?_ hrest hrest', ?_⟩
  · rw [hstate, hu']
    exact h.state
  · rw [hself, hi]
    exact hnext a
  · rw [List.nil_append, seen_singleton rfl]
    rfl

variable [DecidableEq K]

/-- Each step is made in the second situation as well, unless it is by one of those who are left
out. -/
theorem SameFor.step (h : SameFor R R' d ρ t t') (hapart : ∀ key, R key → ¬ R' key)
    (hinj : ∀ k k' i, d k = some i → d k' = some i → k = k') (hstep : Step t mo u) :
    ∃ σ tr' u', Run t' tr' u' ∧ SameFor R R' d σ u u' ∧ seen d [mo] = seen some tr' := by
  rcases hstep.inversion with ⟨k, c, next, htask, hact, hstate, hself, hrest⟩ |
    ⟨k, c, next, a, htask, hact, hstate, hself, hrest⟩ | ⟨-, hchange, -⟩
  · rw [seen_singleton hact]
    cases hk : d k with
    | none =>
      have hother := h.others k hk
      rw [htask] at hother
      obtain ⟨c', next', heq, hin, -, hnext⟩ := hother.of_shared
      cases heq
      refine ⟨ρ, [], t', .nil, h.skip hk ?_ ?_ hrest, rfl⟩
      · rw [hstate]
        exact h.state.foreign fun key hkey hw => hapart key hkey (hin.of_written? hw)
      · rw [hself]
        exact hnext ⊤ le_rfl _ _ (.of_same rfl fun _ _ _ _ => trivial)
    | some i =>
      obtain ⟨σ, tr', u', hrun, hsame, hseen⟩ :=
        h.step_shared hinj hk htask hstate hself hrest
      exact ⟨σ, tr', u', hrun, hsame, hseen.symm⟩
  · rw [seen_singleton hact]
    cases hk : d k with
    | none =>
      have hother := h.others k hk
      rw [htask] at hother
      obtain ⟨next', heq, hnext⟩ := hother.of_own
      cases heq
      refine ⟨ρ, [], t', .nil, h.skip hk ?_ ?_ hrest, rfl⟩
      · rw [hstate]
        exact h.state
      · rw [hself]
        exact hnext a
    | some i =>
      obtain ⟨tr', u', hrun, hsame, hseen⟩ := h.step_own hinj hk htask hstate hself hrest
      exact ⟨ρ, tr', u', hrun, hsame, hseen.symm⟩
  · exact hchange.elim

/-- So is each run: the second situation makes the steps of its own clients and no others. -/
theorem SameFor.run (h : SameFor R R' d ρ t t') (hapart : ∀ key, R key → ¬ R' key)
    (hinj : ∀ k k' i, d k = some i → d k' = some i → k = k') (hrun : Run t tr u) :
    ∃ σ tr' u', Run t' tr' u' ∧ SameFor R R' d σ u u' ∧ seen d tr = seen some tr' := by
  induction hrun with
  | nil => exact ⟨ρ, [], t', .nil, h, rfl⟩
  | concat hrun hstep ih =>
    obtain ⟨σ, tr₁, u₁, hrun₁, hsame₁, hseen₁⟩ := ih
    obtain ⟨τ, tr₂, u₂, hrun₂, hsame₂, hseen₂⟩ := hsame₁.step hapart hinj hstep
    refine ⟨τ, tr₁ ++ tr₂, u₂, hrun₁.append hrun₂, hsame₂, ?_⟩
    rw [seen_append, seen_append, hseen₁, hseen₂]

/-- Some of the clients of a run are shown the same as in another run of them alone: they exchange
the same with the store and with their own parts, but for indexes, the same clients are done with
the same results, and their space holds the same. -/
structure Unaffected (s : Space) (d : K → Option ι) (tr : List (Moment Memory.shared M K))
    (t : Situation Memory.shared M K α) (tr' : List (Moment Memory.shared M ι))
    (t' : Situation Memory.shared M ι α) : Prop where
  exchanges : seen d tr = seen some tr'
  results : ∀ k i, d k = some i → ∀ r, t.tasks k = .done r ↔ t'.tasks i = .done r
  stored : ∀ key, s.Owns key →
    (t.state.get? key).map Entry.value = (t'.state.get? key).map Entry.value

/-- The clients of a space do without those of another one. -/
theorem exists_alone (hapart : ∀ key, s.Owns key → ¬ s'.Owns key)
    (hinj : ∀ k k' i, d k = some i → d k' = some i → k = k') {f : ι → Task (operations M) α}
    (hbounded : t.state.Bounded) (hclients : ∀ k i, d k = some i → t.tasks k = s.program (f i))
    (hothers : ∀ k, d k = none → ∃ g, t.tasks k = s'.program g) (hrun : Run t tr u) :
    ∃ tr' u', Run ⟨t.state, fun i => s.program (f i)⟩ tr' u' ∧ Unaffected s d tr u tr' u' := by
  have hsame : SameFor s.Owns s'.Owns d _ t ⟨t.state, fun i => s.program (f i)⟩ := {
    state := .refl s.Owns hbounded
    tasks := fun k i hk => by
      rw [hclients k i hk]
      exact alike_program s (f i) _
    others := fun k hk => by
      obtain ⟨g, hg⟩ := hothers k hk
      rw [hg]
      exact alike_program s' g ⊤ }
  obtain ⟨σ, tr', u', hrun', hsame', hseen⟩ := hsame.run hapart hinj hrun
  refine ⟨tr', u', hrun', hseen, fun k i hk r => (hsame'.tasks k i hk).done_iff r, ?_⟩
  intro key hkey
  rcases hsame'.state.get?_cases hkey with ⟨he, he'⟩ | ⟨value, i, j, he, he', -⟩
  · rw [he, he']
  · rw [he, he']
    rfl

end Runs

/-- The clients of two spaces, in one store. -/
def neighbours {ι κ α : Type} (p q : String) (m : Memory) (f : ι → Task (operations M) α)
    (g : κ → Task (operations M) α) : Situation Memory.shared M (ι ⊕ κ) α where
  state := m
  tasks := Sum.elim (fun i => (ofRoot p).program (f i)) fun k => (ofRoot q).program (g k)

/-- Whatever programs of operations the clients of two spaces are, if the roots are apart, then in
every interleaving the clients of each space are shown what they would be shown if those of the
other space were left out. -/
theorem spaces_isolated {ι κ α : Type} [DecidableEq ι] [DecidableEq κ] {p q : String}
    (hroots : Apart (.ofRoot p) (.ofRoot q)) {m : Memory} (hm : m.Reachable)
    (f : ι → Task (operations M) α) (g : κ → Task (operations M) α)
    {t : Situation Memory.shared M (ι ⊕ κ) α} {tr : List (Moment Memory.shared M (ι ⊕ κ))}
    (hrun : Run (neighbours p q m f g) tr t) :
    (∃ tr' t', Run ⟨m, fun i => (ofRoot p).program (f i)⟩ tr' t' ∧
      Unaffected (.ofRoot p) Sum.getLeft? tr t tr' t') ∧
    ∃ tr' t', Run ⟨m, fun k => (ofRoot q).program (g k)⟩ tr' t' ∧
      Unaffected (.ofRoot q) Sum.getRight? tr t tr' t' := by
  constructor
  · refine exists_alone (fun key => hroots.not_owns) ?_ hm.bounded ?_ ?_ hrun
    · rintro (i | k) (j | l) i' hi hj <;> cases hi <;> cases hj
      rfl
    · rintro (i | k) j hj <;> cases hj
      rfl
    · rintro (i | k) hk
      · cases hk
      · exact ⟨g k, rfl⟩
  · refine exists_alone (fun key => hroots.symm.not_owns) ?_ hm.bounded ?_ ?_ hrun
    · rintro (i | k) (j | l) i' hi hj <;> cases hi <;> cases hj
      rfl
    · rintro (i | k) j hj <;> cases hj
      rfl
    · rintro (i | k) hk
      · exact ⟨f i, rfl⟩
      · cases hk

/-! Two roots of which one begins as the other one does, and a volume below the first. -/

theorem apart_alike : Apart (.ofRoot "/a/") (.ofRoot "/ab") := by
  have ha : (ofRoot "/a/").root = "/a" := by decide
  have hab : (ofRoot "/ab").root = "/ab" := by decide
  refine ⟨by decide, fun u _ h => ?_, fun u _ h => ?_⟩
  · rw [ha, hab] at h
    have hlist := congrArg String.toList h
    simp at hlist
  · rw [ha, hab] at h
    have hlist := congrArg String.toList h
    simp at hlist

def shelf : Volume := { Volume.blank with name := "v" }

def grown (v : Volume) : Volume := { v with size := v.size + 1 }

/-- The keys of the volumes of one name in both spaces. -/
def firstKey : String := (ofRoot "/a/").volumeKey "v"

def secondKey : String := (ofRoot "/ab").volumeKey "v"

def shelved : Memory := Memory.empty.write firstKey (Record.text shelf)

/-- The client of the first space changes its volume. -/
def grower (_ : Unit) : Task (operations Interface.nothing) (Except Error (Option Volume)) :=
  .ask (.changeVolume "v" fun v => .done (grown v)) .done

/-- The client of the second space creates a volume of the same name. -/
def founder (_ : Unit) : Task (operations Interface.nothing) (Except Error (Option Volume)) :=
  .ask (.createVolume shelf) fun r => .done ((r : Except Error Unit).map fun _ => none)

/-- The volume of the second space is created between the two calls of the change. -/
theorem run_neighbours :
    ∃ tr t, Run (neighbours "/a/" "/ab" shelved grower founder) tr t ∧
      t.tasks (.inl ()) = .done (.ok (some (grown shelf))) ∧
      t.tasks (.inr ()) = .done (.ok none) := by
  have hgrower : (neighbours "/a/" "/ab" shelved grower founder).tasks (.inl ()) =
      .ask (.inl (.get firstKey)) fun a =>
        (afterRead firstKey (fun v => .done (grown v)) 4 a).bind .done := by
    change Task.bind (changeRounds firstKey (fun v => .done (grown v)) (4 + 1)).run .done = _
    rw [changeRounds_succ]
    rfl
  have hfounder : (neighbours "/a/" "/ab" shelved grower founder).tasks (.inr ()) =
      .ask (.inl (.create secondKey (Record.text shelf))) fun b =>
        .done ((dropIndex b).map fun _ => none) := by
    change Task.bind (Task.inl (createVolume (ofRoot "/ab") shelf).run) _ = _
    rw [createVolume_run]
    rfl
  have hfirst : shelved.get? firstKey = some ⟨Record.text shelf, 1⟩ := by
    rw [shelved, Memory.get?_write, if_pos rfl]
    rfl
  have hsecond : shelved.get? secondKey = none := by
    rw [shelved, Memory.get?_write, if_neg (by decide)]
    rfl
  have hread : shelved.step (.get firstKey) = (.ok (some ⟨Record.text shelf, 1⟩), shelved) := by
    rw [Memory.step, hfirst]
  have hcreate : shelved.step (.create secondKey (Record.text shelf)) =
      (.ok 2, shelved.write secondKey (Record.text shelf)) := Memory.step_create_of_none hsecond
  have hkept : (shelved.write secondKey (Record.text shelf)).get? firstKey =
      some ⟨Record.text shelf, 1⟩ := by
    rw [Memory.get?_write, if_neg (by decide), hfirst]
  have hwrite : (shelved.write secondKey (Record.text shelf)).step
        (.compareAndSet firstKey (Record.text (grown shelf)) 1) =
      (.ok 3, (shelved.write secondKey (Record.text shelf)).write firstKey
        (Record.text (grown shelf))) := by
    rw [Memory.step, hkept, Option.map_some, if_pos rfl]
    rfl
  obtain ⟨t₁, h₁, hs₁, hf₁, ho₁⟩ := Run.exists_shared .nil hgrower hread
  have hf₁' : t₁.tasks (.inl ()) =
      .ask (.inl (.compareAndSet firstKey (Record.text (grown shelf)) 1)) fun b =>
        (afterWrite firstKey (fun v => .done (grown v)) 4 (grown shelf) b).bind .done := by
    rw [hf₁, afterRead_text]
    rfl
  obtain ⟨t₂, h₂, hs₂, hf₂, ho₂⟩ := h₁.exists_shared ((ho₁ (.inr ()) (by decide)).trans hfounder)
    ((congrArg (Memory.step _) hs₁).trans hcreate)
  obtain ⟨t₃, h₃, -, hf₃, ho₃⟩ := h₂.exists_shared ((ho₂ (.inl ()) (by decide)).trans hf₁')
    ((congrArg (Memory.step _) hs₂).trans hwrite)
  exact ⟨_, t₃, h₃, hf₃, (ho₃ (.inr ()) (by decide)).trans hf₂⟩

theorem spaces_isolated_neighbours :
    ∃ tr t, Run (neighbours "/a/" "/ab" shelved grower founder) tr t ∧
      t.tasks (.inl ()) = .done (.ok (some (grown shelf))) ∧ t.tasks (.inr ()) = .done (.ok none) ∧
      (∃ tr' t', Run ⟨shelved, fun i => (ofRoot "/a/").program (grower i)⟩ tr' t' ∧
        Unaffected (.ofRoot "/a/") Sum.getLeft? tr t tr' t') ∧
      ∃ tr' t', Run ⟨shelved, fun k => (ofRoot "/ab").program (founder k)⟩ tr' t' ∧
        Unaffected (.ofRoot "/ab") Sum.getRight? tr t tr' t' := by
  obtain ⟨tr, t, hrun, hfirst, hsecond⟩ := run_neighbours
  obtain ⟨halone, halone'⟩ := spaces_isolated apart_alike
    ⟨[.set firstKey (Record.text shelf)], rfl⟩ grower founder hrun
  exact ⟨tr, t, hrun, hfirst, hsecond, halone, halone'⟩

end HostAgent.Store.Space
