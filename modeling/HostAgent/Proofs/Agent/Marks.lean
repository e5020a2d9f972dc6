import HostAgent.Proofs.Agent.Beside
import HostAgent.Proofs.Record.Restamped
import HostAgent.Proofs.Store.Rounds
import Mathlib.Data.Finset.Card
import Mathlib.Data.Finset.Dedup

namespace HostAgent.Agent

/-!
# Marking replicas side by side

A mark gives up only if five others wrote the volume while it was under way. Each mark writes once
at most, so of five marks that are alone with a volume none gives up: each has at most four rivals.
What the volume keeps of them are their stamps.
-/

open Store Interleaving

/-- An agent marks a replica of a volume. -/
structure Mark where
  agent : Agent
  volume : String
  replica : Replica

namespace Mark

def key (x : Mark) : String := x.agent.space.volumeKey x.volume

/-- The name by which the replica is found. -/
def name (x : Mark) : String := x.replica.inst.name

def task (x : Mark) : Task (Store.interface.sum own) (Result Unit) :=
  beside (x.agent.markBadReplica x.volume x.replica).run

def change (x : Mark) : ClientCall own := .update x.agent.space x.volume (markHere x.name)

def conclude (x : Mark) : Except Store.Error Outcome → Result Unit :=
  (Deed.mark x.volume x.replica).conclude x.agent

theorem task_eq (x : Mark) : x.task = x.change.task.bind fun r => .done (x.conclude r) :=
  Deed.beside_mark x.agent x.volume x.replica

end Mark

variable {ι : Type} {s t : Situation Memory.shared own ι (Result Unit)} {who : Finset ι}
variable {marks : ι → Mark} {key : String} {u v : Volume} {tr : List (Moment Memory.shared own ι)}

/-- At most five clients are about to mark replicas of one stored volume. -/
structure Marking (s : Situation Memory.shared own ι (Result Unit)) (who : Finset ι)
    (marks : ι → Mark) (key : String) (v : Volume) : Prop where
  few : who.card ≤ 5
  task : ∀ i ∈ who, s.tasks i = (marks i).task
  keys : ∀ i ∈ who, (marks i).key = key
  reachable : Memory.Reachable s.state
  stored : Store.stored s.state key = some (.ok v)

/-- Nobody else has written or deleted the key. -/
def OnlyBy (who : Finset ι) (key : String) (tr : List (Moment Memory.shared own ι)) : Prop :=
  ∀ mo ∈ tr, ∀ i, writer? key mo = some i → i ∈ who

/-- What has become of a volume by some marks: the replicas that they name are stamped, and nothing
else but stamps of replicas that are named has changed. -/
structure Marked (who : Finset ι) (marks : ι → Mark) (v : Volume) (l : List ι) (u : Volume) :
    Prop where
  restamps : v.Restamps u
  stamped : ∀ i ∈ l, ∀ k, v.replicaKey? (marks i).name = some k → u.Stamped k
  others : ∀ k, (∀ i ∈ who, v.replicaKey? (marks i).name ≠ some k) →
    u.replicas.get? k = v.replicas.get? k

theorem marked_nil (who : Finset ι) (marks : ι → Mark) (v : Volume) : Marked who marks v [] v where
  restamps := .refl v
  stamped := by simp
  others _ _ := rfl

theorem Marked.concat {l : List ι} {i : ι} (h : Marked who marks v l u) (hi : i ∈ who)
    (now : Time.Timestamp) : Marked who marks v (l ++ [i]) (u.markBad (marks i).name now) where
  restamps := h.restamps.trans (u.restamps_markBad _ now)
  stamped j hj k hk := by
    rcases List.mem_append.mp hj with hj | hj
    · exact (h.stamped j hj k hk).markBad _ now
    · obtain rfl := List.mem_singleton.mp hj
      exact Volume.stamped_markBad now ((h.restamps.replicaKey?_eq _).trans hk)
  others k hk := by
    rw [Volume.get?_markBad, if_neg, h.others k hk]
    rw [h.restamps.replicaKey?_eq]
    exact hk i hi

theorem OnlyBy.of_append {a b : List (Moment Memory.shared own ι)} (h : OnlyBy who key (a ++ b)) :
    OnlyBy who key a :=
  fun mo hmo => h mo (List.mem_append_left b hmo)

theorem OnlyBy.of_mem_writers (h : OnlyBy who key tr) {i : ι} (hi : i ∈ writers key tr) :
    i ∈ who := by
  obtain ⟨mo, hmo, hw⟩ := List.mem_filterMap.mp hi
  exact h mo hmo i hw

theorem Marking.makes (h : Marking s who marks key v) {i : ι} (hi : i ∈ who) :
    s.tasks i = (marks i).change.task.bind fun r => .done ((marks i).conclude r) :=
  (h.task i hi).trans (marks i).task_eq

variable [DecidableEq ι]

namespace Marking

/-- As long as nobody else writes the volume, it is the volume of the beginning with the stamps of
those marks that have written it. -/
theorem marked (h : Marking s who marks key v) (hrun : Run s tr t) (honly : OnlyBy who key tr) :
    ∃ u, Store.stored t.state key = some (.ok u) ∧ Marked who marks v (writers key tr) u := by
  induction hrun with
  | nil => exact ⟨v, h.stored, marked_nil who marks v⟩
  | @concat tr mo t t' hrun hs ih =>
    obtain ⟨u, hu, hmarked⟩ := ih honly.of_append
    rw [writers_concat]
    cases hw : writer? key mo with
    | none =>
      refine ⟨u, (stored_of_writer?_eq_none hs hw).trans hu, ?_⟩
      rwa [Option.toList_none, List.append_nil]
    | some i =>
      have hi : i ∈ who := honly mo (by simp) i hw
      obtain ⟨-, u', v', hold, hmark, hnew⟩ :=
        effect_of_writer? (h.makes hi) h.reachable.bounded hrun hs hw
      obtain ⟨now, rfl⟩ := yields_markHere hmark
      rw [hu] at hold
      cases hold
      exact ⟨_, hnew, hmarked.concat hi now⟩

theorem nodup_writers (h : Marking s who marks key v) (hrun : Run s tr t)
    (honly : OnlyBy who key tr) : (writers key tr).Nodup := by
  refine List.nodup_iff_count_le_one.mpr fun i => ?_
  by_cases hi : i ∈ who
  · exact count_le_one_of_makes (h.makes hi) hrun key
  · have hnone : (writers key tr).count i = 0 :=
      List.count_eq_zero.mpr fun hmem => hi (honly.of_mem_writers hmem)
    omega

/-- There are at most four others, and each of them has written once at most. -/
theorem length_rivals_lt (h : Marking s who marks key v) (hrun : Run s tr t)
    (honly : OnlyBy who key tr) {i : ι} (hi : i ∈ who) : (rivals i key tr).length < 5 := by
  have hnodup : (rivals i key tr).Nodup := (h.nodup_writers hrun honly).filter _
  have hsub : (rivals i key tr).toFinset ⊆ who.erase i := by
    intro j hj
    obtain ⟨hmem, hne⟩ := List.mem_filter.mp (List.mem_toFinset.mp hj)
    exact Finset.mem_erase.mpr ⟨of_decide_eq_true hne, honly.of_mem_writers hmem⟩
  calc
    (rivals i key tr).length = (rivals i key tr).toFinset.card :=
      (List.toFinset_card_of_nodup hnodup).symm
    _ ≤ (who.erase i).card := Finset.card_le_card hsub
    _ < who.card := Finset.card_erase_lt_of_mem hi
    _ ≤ 5 := h.few

theorem readable (h : Marking s who marks key v) (hrun : Run s tr t) (honly : OnlyBy who key tr)
    {i : ι} (a : Except Store.Error (Option Entry)) (ha : ⟨.inl (.get key), a⟩ ∈ exchanges i tr) :
    ∃ e u, a = .ok (some e) ∧ Space.decode (α := Volume) e.value = .ok u := by
  obtain ⟨mo, hmo, hact⟩ := mem_exchanges.mp ha
  obtain ⟨p, q, t₁, t₂, rfl, hp, hs, -⟩ := hrun.exists_step hmo
  obtain ⟨u, hu, -⟩ := h.marked hp honly.of_append
  obtain ⟨e, he, hdecode⟩ := Option.map_eq_some_iff.mp hu
  have hanswer := (Prod.mk.inj (hs.answer_eq hact)).1
  rw [hs.before_eq] at hanswer
  exact ⟨e, u, hanswer.symm.trans (congrArg Except.ok he), hdecode⟩

theorem refusals (hrun : Run s tr t) {i : ι} (value : String) (index : Nat) (f : Store.Error)
    (hf : ⟨.inl (.compareAndSet key value index), (.error f : Except Store.Error Nat)⟩ ∈
      exchanges i tr) : f = .conflict key := by
  obtain ⟨mo, hmo, hact⟩ := mem_exchanges.mp hf
  obtain ⟨p, q, t₁, t₂, -, -, hs, -⟩ := hrun.exists_step hmo
  exact (Memory.step_compareAndSet_error (hs.answer_eq hact)).2.1

/-- A mark that is done has succeeded, and it has written the volume. -/
theorem succeeded (h : Marking s who marks key v) (hrun : Run s tr t) (honly : OnlyBy who key tr)
    {i : ι} (hi : i ∈ who) {r : Result Unit} (hr : t.tasks i = .done r) :
    r = .ok () ∧ i ∈ writers key tr := by
  obtain ⟨w, hw, hpath, hsettled⟩ := settled_of_makes (h.makes hi) hrun
  obtain ⟨o, rfl, rfl⟩ := Task.bind_done_eq_done (hw.symm.trans hr)
  obtain ⟨w, hw, hchange⟩ := hpath.of_map
  obtain ⟨b, rfl, rfl⟩ := Task.bind_done_eq_done hw.symm
  have hcourse : Space.Course (marks i).key (markHere (marks i).name) 5 (exchanges i tr) b :=
    Space.course_of_path hchange
  rw [h.keys i hi] at hcourse
  rcases hcourse.result_of_readable (h.readable hrun honly) (refusals hrun) with ⟨v', rfl⟩ | rfl
  · exact ⟨rfl, (mem_writers_of_settled hsettled key).mpr ⟨h.keys i hi, _, rfl, rfl⟩⟩
  · have hlost := (lostRounds_of_course hcourse hrun rfl).2.le_length
    exact absurd hlost (Nat.not_le.mpr (h.length_rivals_lt hrun honly hi))

end Marking

/-- Whatever marks have done so far, they can all be brought to success, without the others. -/
theorem Marking.exists_success (h : Marking s who marks key v) (hrun : Run s tr t)
    (honly : OnlyBy who key tr) :
    ∃ tr' t', Run t tr' t' ∧ (∀ mo ∈ tr', ∃ i ∈ who, ∃ x, mo.act = .exchange i x) ∧
      ∀ i ∈ who, t'.tasks i = .done (.ok ()) := by
  obtain ⟨tr', t', hrun', hacts, hdone⟩ := exists_run_all_done t who
  refine ⟨tr', t', hrun', hacts, fun i hi => ?_⟩
  have honly' : OnlyBy who key (tr ++ tr') := by
    intro mo hmo j hj
    rcases List.mem_append.mp hmo with hmo | hmo
    · exact honly mo hmo j hj
    · obtain ⟨i, hi, x, hact⟩ := hacts mo hmo
      obtain ⟨y, hact', -⟩ := writer?_eq_some_iff.mp hj
      rw [hact] at hact'
      cases hact'
      exact hi
  obtain ⟨r, hr⟩ := hdone i hi
  rw [hr, (h.succeeded (hrun.append hrun') honly' hi hr).1]

/-- In no interleaving does a change come to a conflict unless others have written the volume in
each of its five rounds. So of at most five marks that are alone with a volume none gives up: those
that are done have succeeded and have left their stamps, nothing else of the volume has changed, and
the others can succeed as well. -/
theorem marks_outlast_rivals :
    (∀ {M : Interface} {ι : Type} [DecidableEq ι]
      {s t : Situation Memory.shared M ι (Except Store.Error (Option Volume))}
      {tr : List (Moment Memory.shared M ι)} {i : ι} {space : Space} {name k : String}
      {mutate : Volume → Task M Volume},
      s.tasks i = (space.changeVolume name mutate).run → Run s tr t →
      t.tasks i = .done (.error (.conflict k)) →
        k = space.volumeKey name ∧ LostRounds i (space.volumeKey name) 5 tr ∧
          5 ≤ (rivals i (space.volumeKey name) tr).length) ∧
    ∀ {ι : Type} [DecidableEq ι] {s t : Situation Memory.shared own ι (Result Unit)}
      {who : Finset ι} {marks : ι → Mark} {key : String} {v : Volume}
      {tr : List (Moment Memory.shared own ι)},
      Marking s who marks key v → Run s tr t → OnlyBy who key tr →
        (∀ i ∈ who, ∀ r, t.tasks i = .done r → r = .ok ()) ∧
        (∃ u, Store.stored t.state key = some (.ok u) ∧ v.Restamps u ∧
          (∀ i ∈ who, t.tasks i = .done (.ok ()) →
            ∀ k, v.replicaKey? (marks i).name = some k → u.Stamped k) ∧
          ∀ k, (∀ i ∈ who, v.replicaKey? (marks i).name ≠ some k) →
            u.replicas.get? k = v.replicas.get? k) ∧
        ∃ tr' t', Run t tr' t' ∧ (∀ mo ∈ tr', ∃ i ∈ who, ∃ x, mo.act = .exchange i x) ∧
          ∀ i ∈ who, t'.tasks i = .done (.ok ()) := by
  refine ⟨?_, ?_⟩
  · intro M ι _ s t tr i space name k mutate hi hrun hconflict
    have hpath := hrun.path i
    rw [hi, hconflict] at hpath
    obtain ⟨hk, hlost⟩ := lostRounds_of_course (Space.course_of_path hpath) hrun rfl
    exact ⟨hk, hlost, hlost.le_length⟩
  · intro ι _ s t who marks key v tr h hrun honly
    obtain ⟨u, hu, hmarked⟩ := h.marked hrun honly
    refine ⟨fun i hi r hr => (h.succeeded hrun honly hi hr).1, ⟨u, hu, hmarked.restamps, ?_,
      hmarked.others⟩, h.exists_success hrun honly⟩
    intro i hi hdone
    exact hmarked.stamped i (h.succeeded hrun honly hi hdone).2

def replicaNamed (name : String) : Replica := .ofInstance { Instance.blank with name := name }

def twoReplicas : Volume where
  name := "vol"
  size := 1024
  image := "engine"
  replicas := .ofList [("r1", replicaNamed "vol-r-1"), ("r2", replicaNamed "vol-r-2")]

def oneVolume : Memory := Memory.empty.write "/volumes/vol" (Record.text twoReplicas)

theorem reachable_oneVolume : oneVolume.Reachable :=
  ⟨[.set "/volumes/vol" (Record.text twoReplicas)], rfl⟩

theorem get?_oneVolume : oneVolume.get? "/volumes/vol" = some ⟨Record.text twoReplicas, 1⟩ := by
  rw [oneVolume, Memory.get?_write, if_pos rfl]
  rfl

/-- Two marks, each of another replica. -/
def pairMark (b : Bool) : Mark where
  agent := ⟨default, ⟨""⟩, default, "engine"⟩
  volume := "vol"
  replica := replicaNamed (if b then "vol-r-1" else "vol-r-2")

def pairBegun : Situation Memory.shared own Bool (Result Unit) :=
  ⟨oneVolume, fun b => (pairMark b).task⟩

/-- A change, and a rival that writes the volume five times. -/
def rivalBegun :
    Situation Memory.shared Interface.nothing Bool (Except Store.Error (Option Volume)) where
  state := oneVolume
  tasks
    | false => (Space.changeVolume ⟨""⟩ "vol" fun u => .done u).run
    | true => rewrites "/volumes/vol" (Record.text twoReplicas) 5

theorem marks_outlast_rivals_pair :
    (∃ tr t, Run rivalBegun tr t ∧ t.tasks false = .done (.error (.conflict "/volumes/vol")) ∧
      LostRounds false "/volumes/vol" 5 tr) ∧
    ∃ tr t u, Run pairBegun tr t ∧ (∀ b, t.tasks b = .done (.ok ())) ∧
      Store.stored t.state "/volumes/vol" = some (.ok u) ∧ u.Stamped "r1" ∧ u.Stamped "r2" := by
  obtain ⟨hrounds, hmarks⟩ := marks_outlast_rivals
  constructor
  · obtain ⟨tr, t, hrun, hdone⟩ := exists_conflict (s := rivalBegun) (n := 4) rfl get?_oneVolume
      (Nat.le_refl 1) rfl rfl
    have hchange : rivalBegun.tasks false =
        (Space.changeVolume ⟨""⟩ "vol" fun u => .done u).run := rfl
    exact ⟨tr, t, hrun, hdone, (hrounds hchange hrun hdone).2.1⟩
  · have hmarking : Marking pairBegun Finset.univ pairMark "/volumes/vol" twoReplicas := {
      few := by decide
      task := fun _ _ => rfl
      keys := fun _ _ => rfl
      reachable := reachable_oneVolume
      stored := stored_write _ _ _ }
    obtain ⟨-, -, tr, t, hrun, -, hdone⟩ := hmarks hmarking .nil (by simp [OnlyBy])
    have honly : OnlyBy Finset.univ "/volumes/vol" tr := fun _ _ i _ => Finset.mem_univ i
    obtain ⟨-, ⟨u, hu, -, hstamped, -⟩, -⟩ := hmarks hmarking hrun honly
    have hboth : ∀ b, t.tasks b = .done (.ok ()) := fun b => hdone b (Finset.mem_univ b)
    exact ⟨tr, t, u, hrun, hboth, hu,
      hstamped true (Finset.mem_univ _) (hboth true) "r1" (by decide),
      hstamped false (Finset.mem_univ _) (hboth false) "r2" (by decide)⟩

end HostAgent.Agent
