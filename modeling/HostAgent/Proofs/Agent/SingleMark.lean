import HostAgent.Proofs.Agent.Beside
import HostAgent.Proofs.Record.Restamped
import HostAgent.Proofs.Time.Order
import Mathlib.Order.Monotone.Defs

namespace HostAgent.Agent

/-!
# One mark

A mark that nobody disturbs stamps one replica of the volume: of those that have the name it is
asked for, the one with the least key. The stamp is a moment while the mark was under way, and all
else in the volume and in the store stays as it is. Rivals or not, a mark never takes a stamp away.
-/

open Store Store.Space

/-! ## As time goes on -/

/-- A store in memory, and how many calls have been answered by and by. -/
structure Passing where
  memory : Memory
  calls : Nat

/-- Answers an agent while its clock goes on with each call. -/
def stepInTime (time : Nat → Time.Timestamp) (others : (c : OwnCall) → c.call.Answer) :
    (c : interface.Call) → Passing → interface.Answer c × Passing
  | .store c, x => ((x.memory.step c).1, ⟨(x.memory.step c).2, x.calls + 1⟩)
  | .container c, x => (others (.container c), ⟨x.memory, x.calls + 1⟩)
  | .wait w, x => (others (.wait w), ⟨x.memory, x.calls + 1⟩)
  | .now, x => (time x.calls, ⟨x.memory, x.calls + 1⟩)
  | .pick k, x => (others (.pick k), ⟨x.memory, x.calls + 1⟩)
  | .forward h r, x => (others (.forward h r), ⟨x.memory, x.calls + 1⟩)

def stepByClock (time : Nat → Time.Timestamp) :
    (c : (Store.interface.sum clock).Call) → Passing →
      (Store.interface.sum clock).Answer c × Passing
  | .inl c, x => ((x.memory.step c).1, ⟨(x.memory.step c).2, x.calls + 1⟩)
  | .inr _, x => (time x.calls, ⟨x.memory, x.calls + 1⟩)

variable {a : Agent} {time : Nat → Time.Timestamp} {others : (c : OwnCall) → c.call.Answer}
variable {m : Memory} {n : Nat} {volume name key : String} {replica : Replica} {e : Entry}
variable {u : Volume}

theorem run_changeCall {α : Type} (others : (c : OwnCall) → c.call.Answer)
    (t : Task (Store.interface.sum clock) α) (x : Passing) :
    (t.interpret (changeCall fun _ => call .now)).run (stepInTime time others) x =
      t.run (stepByClock time) x := by
  rw [Task.run_interpret]
  apply Task.run_congr
  intro c x
  cases c with
  | inl c => rfl
  | inr c => rfl

theorem run_markNow (time : Nat → Time.Timestamp) (name : String) (u : Volume) (m : Memory)
    (n : Nat) :
    ∃ n', n ≤ n' ∧
      (Task.inr (I := Store.interface) (markNow name u)).run (stepByClock time) ⟨m, n⟩ =
        (u.markBad name (time n), ⟨m, n'⟩) := by
  rw [markNow]
  cases hkey : u.replicaKey? name with
  | none =>
    rw [Volume.markBad, hkey]
    exact ⟨n, Nat.le_refl n, rfl⟩
  | some k => exact ⟨n + 1, Nat.le_succ n, rfl⟩

theorem run_afterRead (he : m.get? key = some e) (hu : decode e.value = .ok u) (rounds : Nat) :
    ∃ n', n < n' ∧
      (afterRead key (markNow name) rounds (.ok (some e))).run (stepByClock time) ⟨m, n⟩ =
        (.ok (some (u.markBad name (time n))),
          ⟨m.write key (Record.text (u.markBad name (time n))), n'⟩) := by
  obtain ⟨n', hn, hrun⟩ := run_markNow time name u m n
  generalize u.markBad name (time n) = w at hrun ⊢
  have hwrite : m.step (.compareAndSet key (Record.text w) e.index) =
      (.ok (m.index + 1), m.write key (Record.text w)) := by
    rw [Memory.step, he, Option.map_some, if_pos rfl]
  refine ⟨n' + 1, Nat.lt_succ_of_le hn, ?_⟩
  simp only [afterRead, hu]
  rw [Task.run_bind, hrun]
  change (afterWrite key (markNow name) rounds w
      (m.step (.compareAndSet key (Record.text w) e.index)).1).run (stepByClock time)
    ⟨(m.step (.compareAndSet key (Record.text w) e.index)).2, n' + 1⟩ = _
  rw [hwrite]
  rfl

/-- A change reads first. -/
theorem run_changeVolume (s : Space) (name : String) (mutate : Volume → Task clock Volume)
    (m : Memory) (n : Nat) :
    (s.changeVolume name mutate).run.run (stepByClock time) ⟨m, n⟩ =
      (afterRead (s.volumeKey name) mutate 4 (.ok (m.get? (s.volumeKey name)))).run
        (stepByClock time) ⟨m, n + 1⟩ := by
  rw [changeVolume, maxRounds, changeRounds_succ]
  rfl

/-- What an agent makes of what the change for a mark comes to. -/
def concludeMark (a : Agent) (volume : String) : Except Store.Error (Option Volume) → Result Unit
  | .ok (some _) => .ok ()
  | .ok none => .error (.context "fail to mark bad replica" (.notFound "volume" volume))
  | .error e =>
    .error (.context "fail to mark bad replica" (.store "update" (a.space.volumeKey volume) e))

/-- A mark by itself reads the volume and goes on from there. -/
theorem run_markBadReplica {r : Except Store.Error (Option Volume)} {x : Passing}
    (hread : (afterRead (a.space.volumeKey volume) (markNow replica.inst.name) 4
      (.ok (m.get? (a.space.volumeKey volume)))).run (stepByClock time) ⟨m, n + 1⟩ = (r, x)) :
    (a.markBadReplica volume replica).run.run (stepInTime time others) ⟨m, n⟩ =
      (concludeMark a volume r, x) := by
  have hchange := (run_changeCall others _ ⟨m, n⟩).trans
    ((run_changeVolume a.space volume (markNow replica.inst.name) m n).trans hread)
  rw [markBadReplica, Task.run_bind_of_ok (Task.run_lift hchange)]
  rcases r with f | _ | w <;> rfl

theorem run_markBadReplica_of_some (time : Nat → Time.Timestamp)
    (others : (c : OwnCall) → c.call.Answer) (n : Nat) (replica : Replica)
    (he : m.get? (a.space.volumeKey volume) = some e)
    (hu : decode e.value = .ok u) :
    ∃ n', n + 1 < n' ∧
      (a.markBadReplica volume replica).run.run (stepInTime time others) ⟨m, n⟩ =
        (.ok (), ⟨m.write (a.space.volumeKey volume)
          (Record.text (u.markBad replica.inst.name (time (n + 1)))), n'⟩) := by
  obtain ⟨n', hn, hrun⟩ := run_afterRead he hu 4
  rw [← he] at hrun
  exact ⟨n', hn, run_markBadReplica hrun⟩

theorem run_markBadReplica_of_none (hnone : m.get? (a.space.volumeKey volume) = none) :
    (a.markBadReplica volume replica).run.run (stepInTime time others) ⟨m, n⟩ =
      (.error (.context "fail to mark bad replica" (.notFound "volume" volume)), ⟨m, n + 1⟩) := by
  refine run_markBadReplica (m := m) (r := .ok none) ?_
  rw [hnone]
  rfl

theorem run_markBadReplica_of_error {f : Store.Error}
    (he : m.get? (a.space.volumeKey volume) = some e)
    (hf : decode (α := Volume) e.value = .error f) :
    (a.markBadReplica volume replica).run.run (stepInTime time others) ⟨m, n⟩ =
      (concludeMark a volume (.error f), ⟨m, n + 1⟩) := by
  refine run_markBadReplica (m := m) (r := .error f) ?_
  simp only [he, afterRead, hf]
  rfl

/-- A mark by itself touches no key but that of the volume. -/
theorem get?_run_markBadReplica {j : String} (hj : j ≠ a.space.volumeKey volume) :
    ((a.markBadReplica volume replica).run.run (stepInTime time others) ⟨m, n⟩).2.memory.get? j =
      m.get? j := by
  cases he : m.get? (a.space.volumeKey volume) with
  | none => rw [run_markBadReplica_of_none he]
  | some e =>
    cases hu : decode (α := Volume) e.value with
    | error f => rw [run_markBadReplica_of_error he hu]
    | ok u =>
      obtain ⟨n', -, hrun⟩ := run_markBadReplica_of_some time others n replica he hu
      rw [hrun, Memory.get?_write, if_neg hj]

/-! ## The stamp -/

/-- What a volume becomes by a mark that was under way between two moments: the replica with the
least key of those that have a name is stamped, if there is one, and nothing else is different. -/
structure StampsFirst (name : String) (first last : Time.Timestamp) (v w : Volume) : Prop where
  unnamed : (∀ k, ¬ v.Bears name k) → w = v
  named : (∃ k, v.Bears name k) → ∃ k r t, v.replicas.get? k = some r ∧ r.inst.name = name ∧
    (∀ j, v.Bears name j → k ≤ j) ∧ first ≤ t ∧ t ≤ last ∧
    w.replicas.get? k = some { r with badSince := some t } ∧
    ∀ j, j ≠ k → w.replicas.get? j = v.replicas.get? j
  name_eq : w.name = v.name
  size_eq : w.size = v.size
  image_eq : w.image = v.image
  stamped : ∀ k, v.Stamped k → w.Stamped k

theorem stampsFirst_markBad (v : Volume) (name : String) {first now last : Time.Timestamp}
    (hfirst : first ≤ now) (hlast : now ≤ last) :
    StampsFirst name first last v (v.markBad name now) where
  unnamed h := by
    rw [Volume.markBad, Volume.replicaKey?_eq_none_iff.mpr h]
  named := by
    rintro ⟨j, hj⟩
    cases hkey : v.replicaKey? name with
    | none => exact absurd hj (Volume.replicaKey?_eq_none_iff.mp hkey j)
    | some k =>
      obtain ⟨r, hr, hname⟩ := Volume.exists_of_replicaKey? hkey
      refine ⟨k, r, now, hr, hname, (Volume.replicaKey?_eq_some_iff.mp hkey).2, hfirst, hlast,
        ?_, ?_⟩
      · rw [Volume.get?_markBad, if_pos hkey, hr, Option.map_some]
      · intro i hi
        rw [Volume.get?_markBad, if_neg]
        rw [hkey]
        exact fun heq => hi (Option.some.inj heq).symm
  name_eq := (v.restamps_markBad name now).name
  size_eq := (v.restamps_markBad name now).size
  image_eq := (v.restamps_markBad name now).image
  stamped _ h := h.markBad name now

/-- So far nothing has been written, or just now a volume in the place of the one that was read
under the key, with all the stamps of that. -/
def KeepsStamps (key : String) (l : List (Exchange (Store.interface.sum own))) : Prop :=
  Unwritten l ∨ ∃ p q e, ∃ (u w : Volume) (k : Nat),
    l = p ++ ⟨.inl (.get key), (.ok (some e) : Except Store.Error _)⟩ ::
      (q ++ [⟨.inl (.compareAndSet key (Record.text w) e.index),
        (.ok k : Except Store.Error Nat)⟩]) ∧
    Unwritten p ∧ Private q ∧ decode (α := Volume) e.value = .ok u ∧ ∀ j, u.Stamped j → w.Stamped j

theorem keepsStamps_of_path {l : List (Exchange (Store.interface.sum own))}
    {t : Task (Store.interface.sum own) (Result Unit)}
    (h : Task.Path (beside (a.markBadReplica volume replica).run) l t) :
    KeepsStamps (a.space.volumeKey volume) l := by
  rw [Deed.beside_mark] at h
  obtain ⟨t', -, hcall⟩ := h.of_map
  rcases ClientCall.path_update hcall with ⟨hl, -⟩ | ⟨w, ⟨p, q, e, u, k, rfl, hp, hq, hu, hw⟩, -⟩
  · exact .inl hl
  · obtain ⟨now, rfl⟩ := yields_markHere hw
    exact .inr ⟨p, q, e, u, _, k, rfl, hp, hq, hu, fun j hj => hj.markBad _ now⟩

/-- A mark that nobody disturbs, of a volume that is stored as the text of a record: the first
replica of the name is stamped with a moment between those at which the mark began and ended, and
the text of a volume without a replica of the name stays the same. Without the volume the mark
fails and leaves the store as it is. In no case does another key change, and however marks and
others interleave, none of them writes a volume that lacks a stamp of the one which it replaces. -/
theorem marks_stamp_first_of_name (a : Agent) (volume : String) (replica : Replica) :
    (∀ (time : Nat → Time.Timestamp) (others : (c : OwnCall) → c.call.Answer) (m : Memory)
        (n : Nat), Monotone time → ∀ r m' n',
        (a.markBadReplica volume replica).run.run (stepInTime time others) ⟨m, n⟩ = (r, ⟨m', n'⟩) →
          (∀ v i, m.get? (a.space.volumeKey volume) = some ⟨Record.text v, i⟩ → r = .ok () ∧
            ∃ w i', m'.get? (a.space.volumeKey volume) = some ⟨Record.text w, i'⟩ ∧
              StampsFirst replica.inst.name (time n) (time n') v w) ∧
          (m.get? (a.space.volumeKey volume) = none → m' = m ∧
            r = .error (.context "fail to mark bad replica" (.notFound "volume" volume))) ∧
          ∀ j, j ≠ a.space.volumeKey volume → m'.get? j = m.get? j) ∧
    ∀ l t, Task.Path (beside (a.markBadReplica volume replica).run) l t →
      KeepsStamps (a.space.volumeKey volume) l := by
  refine ⟨?_, fun _ _ => keepsStamps_of_path⟩
  intro time others m n htime r m' n' hrun
  refine ⟨?_, ?_, ?_⟩
  · intro v i hv
    obtain ⟨n₁, hn, hsome⟩ := run_markBadReplica_of_some time others n replica hv (decode_text v)
    rw [hrun] at hsome
    cases hsome
    refine ⟨rfl, _, _, by rw [Memory.get?_write, if_pos rfl], ?_⟩
    exact stampsFirst_markBad v _ (htime (Nat.le_succ n)) (htime hn.le)
  · intro hnone
    rw [run_markBadReplica_of_none hnone] at hrun
    cases hrun
    exact ⟨rfl, rfl⟩
  · intro j hj
    have hsame : ((a.markBadReplica volume replica).run.run (stepInTime time others)
        ⟨m, n⟩).2.memory.get? j = m.get? j := get?_run_markBadReplica hj
    rwa [hrun] at hsame

/-! Two replicas of one name, and a third that was found to be bad already. -/

def twin : Replica := .ofInstance { Instance.blank with name := "twin" }

def twins : Volume where
  name := "vol"
  size := 1024
  image := "engine"
  replicas := .ofList [("r1", ⟨{ Instance.blank with name := "other" }, some .epoch⟩), ("r2", twin),
    ("r3", twin)]

def twinsStored : Memory := Memory.empty.write "/volumes/vol" (Record.text twins)

/-- The clock of an agent at its first call, and at the later ones. -/
def strike (n : Nat) : Time.Timestamp :=
  if n = 0 then .epoch else ⟨Time.Timestamp.epoch.date, 0, 0, 1, 0, by decide⟩

theorem monotone_strike : Monotone strike := by
  refine monotone_nat_of_le_succ fun n => ?_
  cases n with
  | zero =>
    have hrank : (strike 0).rank ≤ (strike 1).rank := by decide
    exact hrank
  | succ n => exact le_refl _

def marker : Agent := ⟨default, ⟨""⟩, default, "engine"⟩

/-- All that a mark does where the volume has gone. -/
def foundNothing : List (Exchange (Store.interface.sum own)) :=
  [⟨.inl (.get "/volumes/vol"), (.ok none : Except Store.Error (Option Entry))⟩]

theorem marks_stamp_first_of_name_twins :
    ∃ others m' n' w i', (marker.markBadReplica "vol" twin).run.run (stepInTime strike others)
          ⟨twinsStored, 0⟩ = (.ok (), ⟨m', n'⟩) ∧
        m'.get? "/volumes/vol" = some ⟨Record.text w, i'⟩ ∧
        StampsFirst "twin" (strike 0) (strike n') twins w ∧ m'.get? "/volumes/other" = none ∧
        (∃ t, Task.Path (beside (marker.markBadReplica "vol" twin).run) foundNothing t) ∧
        Unwritten foundNothing := by
  obtain ⟨hrun, hpath⟩ := marks_stamp_first_of_name marker "vol" twin
  let others : (c : OwnCall) → c.call.Answer := fun c => Classical.choice c.nonempty_answer
  have hstored : twinsStored.get? "/volumes/vol" = some ⟨Record.text twins, 1⟩ := by
    rw [twinsStored, Memory.get?_write, if_pos rfl]
    rfl
  have hother : twinsStored.get? "/volumes/other" = none := by
    rw [twinsStored, Memory.get?_write, if_neg (by decide)]
    rfl
  generalize hout : (marker.markBadReplica "vol" twin).run.run (stepInTime strike others)
    ⟨twinsStored, 0⟩ = out
  obtain ⟨r, m', n'⟩ := out
  obtain ⟨hstamp, -, hframe⟩ := hrun strike others twinsStored 0 monotone_strike r m' n' hout
  obtain ⟨rfl, w, i', hw, hstamps⟩ := hstamp twins 1 hstored
  have hread : ∃ t, Task.Path (beside (marker.markBadReplica "vol" twin).run) foundNothing t :=
    ⟨_, .cons _ (.nil _)⟩
  refine ⟨others, m', n', w, i', hout, hw, hstamps, (hframe _ (by decide)).trans hother, hread, ?_⟩
  obtain ⟨t, ht⟩ := hread
  rcases hpath _ t ht with h | ⟨p, q, e, u, w, k, hl, -⟩
  · exact h
  · have hlength := congrArg List.length hl
    simp only [foundNothing, List.length_cons, List.length_append, List.length_nil] at hlength
    omega

end HostAgent.Agent
