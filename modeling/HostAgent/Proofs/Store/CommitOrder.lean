import HostAgent.Proofs.Store.Writers

namespace HostAgent.Store

/-!
# The order of the writes

Whatever the interleaving, a stored volume is the outcome of the writes that were carried out, in
their order.
-/

open Interleaving

variable {M : Interface} {ι : Type}

def begun (calls : ι → ClientCall M) (m : Memory) :
    Situation Memory.shared M ι (Except Error Outcome) := ⟨m, fun i => (calls i).task⟩

theorem begun_makes (calls : ι → ClientCall M) (m : Memory) (i : ι) :
    (begun calls m).tasks i = (calls i).task.bind fun r => .done (id r) :=
  (Task.bind_done _).symm

section Writes

variable [DecidableEq ι] {calls : ι → ClientCall M} {m : Memory}
variable {t u : Situation Memory.shared M ι (Except Error Outcome)} {mo : Moment Memory.shared M ι}
variable {tr : List (Moment Memory.shared M ι)} {key : String} {i : ι}

/-- The effects of calls, one after the other, on the record under a key. -/
inductive Replays (calls : ι → ClientCall M) :
    List ι → Option (Except Error Volume) → Option (Except Error Volume) → Prop
  | nil (old : Option (Except Error Volume)) : Replays calls [] old old
  | concat {l : List ι} {i : ι} {old mid new : Option (Except Error Volume)}
      (h : Replays calls l old mid) (hi : (calls i).Effect mid new) :
      Replays calls (l ++ [i]) old new

theorem replays_of_run (hm : m.Reachable) (h : Run (begun calls m) tr t) (key : String) :
    Replays calls (writers key tr) (stored m key) (stored t.state key) := by
  induction h with
  | nil => exact .nil _
  | @concat tr mo t u h hs ih =>
    rw [writers_concat]
    cases hw : writer? key mo with
    | none =>
      rw [stored_of_writer?_eq_none hs hw]
      simpa using ih
    | some i => exact .concat ih (effect_of_writer? (begun_makes calls m i) hm.bounded h hs hw).2

theorem nodup_writers (h : Run (begun calls m) tr t) (key : String) : (writers key tr).Nodup :=
  List.nodup_iff_count_le_one.mpr fun i => count_le_one_of_makes (begun_makes calls m i) h key

theorem mem_writers_iff (h : Run (begun calls m) tr t) :
    i ∈ writers key tr ↔
      (calls i).key = key ∧ ∃ o, t.tasks i = .done (.ok o) ∧ o.wrote = true := by
  obtain ⟨w, hw, -, hsettled⟩ := settled_of_makes (begun_makes calls m i) h
  rw [hw.trans (Task.bind_done w)]
  exact mem_writers_of_settled hsettled key

theorem after_eq_of_not_wrote (h : Run (begun calls m) tr t) {r : Except Error Outcome}
    (hr : t.tasks i = .done r) (hnone : ∀ o, r = .ok o → o.wrote = false) (hmem : mo ∈ tr)
    {x : Exchange (interface.sum M)} (hact : mo.act = .exchange i x) : mo.after = mo.before := by
  obtain ⟨w, hw, -, hsettled⟩ := settled_of_makes (begun_makes calls m i) h
  rcases hsettled with ⟨hl, -⟩ | ⟨p, y, o, -, -, -, hdone, hwrote⟩
  · exact after_eq_of_unwritten h hl hmem hact
  · rw [hr, hdone] at hw
    rw [hnone o (Task.done.inj hw)] at hwrote
    cases hwrote

theorem replaced_of_updated {space : Space} {name : String} {mutate : Volume → Task M Volume}
    {v : Volume} (hm : m.Reachable) (h : Run (begun calls m) tr t)
    (hcall : calls i = .update space name mutate)
    (hdone : t.tasks i = .done (.ok (.updated (some v)))) :
    ∃ past write rest, tr = past ++ write :: rest ∧
      Replaced i (space.volumeKey name) mutate v past write ∧ ∀ mo ∈ rest, mo.act.of? i = none := by
  have hi := begun_makes calls m i
  rw [hcall] at hi
  obtain ⟨w, hw, hpath, -⟩ := settled_of_makes hi h
  rw [hdone] at hw
  obtain ⟨r, rfl, rfl⟩ := Task.bind_done_eq_done hw.symm
  rcases ClientCall.path_update hpath with ⟨-, hnone⟩ | ⟨v', ⟨p, q, e, r, k, hl, -, -, -, -⟩, -⟩
  · cases hnone _ rfl
  have hl' : exchanges i tr =
      (p ++ ⟨.inl (.get (space.volumeKey name)), .ok (some e)⟩ :: q) ++
        ⟨.inl (.compareAndSet (space.volumeKey name) (Record.text v') e.index), .ok k⟩ :: [] := by
    rw [hl]
    simp
  obtain ⟨past, write, rest, rfl, hact, -, hrest⟩ := exists_split hl'
  obtain ⟨t₁, t₂, hpast, hs, hrun⟩ := h.of_append_cons
  have hwritten : written? (M := M) ⟨.inl (.compareAndSet (space.volumeKey name) (Record.text v')
      e.index), .ok k⟩ ≠ none := by simp [written?, Call.written?]
  obtain ⟨v'', hv'', hreplaced⟩ := replaced_of_written hi hm.bounded hpast hs hact hwritten
  have hlast := hrun.path i
  rw [hrest, hv'', hdone] at hlast
  cases (Task.path_done_iff.mp hlast).2
  exact ⟨past, write, rest, rfl, hreplaced, fun mo hmo => List.filterMap_eq_nil_iff.mp hrest mo hmo⟩

/-- At any point of any interleaving of calls, a change that came to a volume has written it over
the very record that it was made of, a call that came to nothing has written nothing, and the record
under each key is the outcome of the calls that have written it, each of them once and in the order
of their writes. -/
theorem interleaved_calls_replay (hm : m.Reachable) (h : Run (begun calls m) tr t) :
    (∀ i space name mutate v, calls i = .update space name mutate →
      t.tasks i = .done (.ok (.updated (some v))) →
      ∃ past write rest, tr = past ++ write :: rest ∧
        Replaced i (space.volumeKey name) mutate v past write ∧
        ∀ mo ∈ rest, mo.act.of? i = none) ∧
    (∀ i r, t.tasks i = .done r → (∀ o, r = .ok o → o.wrote = false) →
      ∀ mo ∈ tr, ∀ x, mo.act = .exchange i x → mo.after = mo.before) ∧
    ∀ key, Replays calls (writers key tr) (stored m key) (stored t.state key) ∧
      (writers key tr).Nodup ∧
      ∀ i, i ∈ writers key tr ↔
        (calls i).key = key ∧ ∃ o, t.tasks i = .done (.ok o) ∧ o.wrote = true := by
  refine ⟨?_, ?_, ?_⟩
  · intro i space name mutate v hcall hdone
    exact replaced_of_updated hm h hcall hdone
  · intro i r hr hnone mo hmem x hact
    exact after_eq_of_not_wrote h hr hnone hmem hact
  · intro key
    exact ⟨replays_of_run hm h key, nodup_writers h key, fun i => mem_writers_iff h⟩

def grown (v : Volume) : Volume := { v with size := v.size + 1 }

def sevenOctets : Volume := { Volume.blank with size := 7 }

/-- Two clients that contend for one volume: one lets it grow, the other replaces it. -/
def contenders : Bool → ClientCall Interface.nothing
  | false => .update ⟨""⟩ "" fun u => .done (grown u)
  | true => .set ⟨""⟩ sevenOctets

def contended : Memory := Memory.empty.write "/volumes/" (Record.text Volume.blank)

/-- The first contender reads, is overtaken by the second, and lets the later volume grow. -/
theorem interleaved_calls_replay_contenders :
    ∃ tr t, contended.Reachable ∧ Run (begun contenders contended) tr t ∧ tr.length = 5 ∧
      t.tasks false = .done (.ok (.updated (some (grown sevenOctets)))) ∧
      Replays contenders (writers "/volumes/" tr) (stored contended "/volumes/")
        (stored t.state "/volumes/") := by
  have hreachable : contended.Reachable := ⟨[.set "/volumes/" (Record.text Volume.blank)], rfl⟩
  have hset : (contenders true).task = _ := ClientCall.task_set ⟨""⟩ sevenOctets
  have hread : (contenders false).task = _ :=
    ClientCall.task_update ⟨""⟩ "" fun u => .done (grown u)
  have hwrite (n : Nat) (u : Volume) (k : Nat) := Space.afterRead_text (M := Interface.nothing)
    "/volumes/" (fun u => .done (grown u)) n u k
  have hretry : Space.afterWrite (M := Interface.nothing) "/volumes/" (fun u => .done (grown u)) 4
      (grown Volume.blank) (.error (.conflict "/volumes/")) = _ :=
    Space.changeRounds_succ "/volumes/" _ 3
  let m := contended.write "/volumes/" (Record.text sevenOctets)
  have ha₁ : Memory.step (.get "/volumes/") contended =
      (.ok (some ⟨Record.text Volume.blank, 1⟩), contended) := by
    simp [Memory.step, contended, Memory.empty]
  have ha₂ : Memory.step (.set "/volumes/" (Record.text sevenOctets)) contended = (.ok 2, m) := rfl
  have ha₃ : Memory.step (.compareAndSet "/volumes/" (Record.text (grown Volume.blank)) 1) m =
      (.error (.conflict "/volumes/"), m) := by
    simp [Memory.step, m, contended, Memory.empty]
  have ha₄ : Memory.step (.get "/volumes/") m = (.ok (some ⟨Record.text sevenOctets, 2⟩), m) := by
    simp [Memory.step, m, contended, Memory.empty]
  have ha₅ : Memory.step (.compareAndSet "/volumes/" (Record.text (grown sevenOctets)) 2) m =
      (.ok 3, m.write "/volumes/" (Record.text (grown sevenOctets))) := by
    simp [Memory.step, m, contended, Memory.empty]
  obtain ⟨t₁, h₁, hs₁, hf₁, ho₁⟩ :=
    Run.exists_shared (.nil (s := begun contenders contended)) (i := false) hread ha₁
  have hf₁' := hf₁.trans (congrArg (Task.bind · _) (hwrite 4 _ _))
  obtain ⟨t₂, h₂, hs₂, -, ho₂⟩ := h₁.exists_shared ((ho₁ true (by decide)).trans hset)
    ((congrArg (Memory.step _) hs₁).trans ha₂)
  obtain ⟨t₃, h₃, hs₃, hf₃, -⟩ := h₂.exists_shared ((ho₂ false (by decide)).trans hf₁')
    ((congrArg (Memory.step _) hs₂).trans ha₃)
  have hf₃' := hf₃.trans (congrArg (Task.bind · _) hretry)
  obtain ⟨t₄, h₄, hs₄, hf₄, -⟩ := h₃.exists_shared hf₃' ((congrArg (Memory.step _) hs₃).trans ha₄)
  have hf₄' := hf₄.trans (congrArg (Task.bind · _) (hwrite 3 _ _))
  obtain ⟨t₅, h₅, -, hf₅, -⟩ := h₄.exists_shared hf₄' ((congrArg (Memory.step _) hs₄).trans ha₅)
  exact ⟨_, t₅, hreachable, h₅, rfl, hf₅,
    ((interleaved_calls_replay hreachable h₅).2.2 "/volumes/").1⟩

end Writes

end HostAgent.Store
