import HostAgent.Proofs.Store.Writers

namespace HostAgent.Store

/-!
# Rounds of a change

A change that comes to an end has gone through rounds, in each of which it read the volume, changed
what it had read, and tried to write the outcome. A round is lost where the store refuses to write.
A store in memory does so only if somebody else has written or deleted the key since the reading, so
a change gives up only after so many writes of others, one in each of its rounds.
-/

open Interleaving

variable {M : Interface} {key : String} {mutate : Volume → Task M Volume}

namespace Space

/-- The exchanges of a round that has come to its writing. -/
def attempt (key : String) (e : Entry) (q : List (Exchange M)) (v : Volume) (b : Except Error Nat) :
    List (Exchange (interface.sum M)) :=
  ⟨.inl (.get key), (.ok (some e) : Except Error (Option Entry))⟩ :: (q.map Task.Exchange.inr ++
    [⟨.inl (.compareAndSet key (Record.text v) e.index), b⟩])

/-- The ways in which a change with so many rounds left can go. -/
inductive Course (key : String) (mutate : Volume → Task M Volume) :
    Nat → List (Exchange (interface.sum M)) → Except Error (Option Volume) → Prop
  | spent : Course key mutate 0 [] (.error (.conflict key))
  | unread {n : Nat} (f : Error) :
    Course key mutate (n + 1) [⟨.inl (.get key), (.error f : Except Error (Option Entry))⟩]
      (.error f)
  | absent {n : Nat} :
    Course key mutate (n + 1) [⟨.inl (.get key), (.ok none : Except Error (Option Entry))⟩]
      (.ok none)
  | unreadable {n : Nat} {e : Entry} {f : Error} (hf : decode (α := Volume) e.value = .error f) :
    Course key mutate (n + 1) [⟨.inl (.get key), (.ok (some e) : Except Error (Option Entry))⟩]
      (.error f)
  | written {n : Nat} {e : Entry} {u v : Volume} {q : List (Exchange M)}
      (hu : decode e.value = .ok u) (hv : Task.Path (mutate u) q (.done v)) (k : Nat) :
    Course key mutate (n + 1) (attempt key e q v (.ok k)) (.ok (some v))
  | refused {n : Nat} {e : Entry} {u v : Volume} {q : List (Exchange M)} {f : Error}
      (hu : decode e.value = .ok u) (hv : Task.Path (mutate u) q (.done v))
      (hlast : f.isConflict = true → n = 0) :
    Course key mutate (n + 1) (attempt key e q v (.error f)) (.error f)
  | lost {n : Nat} {e : Entry} {u v : Volume} {q : List (Exchange M)} {f : Error}
      {l : List (Exchange (interface.sum M))} {r : Except Error (Option Volume)}
      (hu : decode e.value = .ok u) (hv : Task.Path (mutate u) q (.done v))
      (h : Course key mutate n l r) :
    Course key mutate (n + 1) (attempt key e q v (.error f) ++ l) r

theorem course_of_path {n : Nat} {l : List (Exchange (interface.sum M))}
    {r : Except Error (Option Volume)}
    (h : Task.Path (changeRounds key mutate n).run l (.done r)) : Course key mutate n l r := by
  induction n generalizing l with
  | zero =>
    obtain ⟨rfl, hr⟩ := Task.path_done_iff.mp h
    cases hr
    exact .spent
  | succ n ih =>
    rw [changeRounds_succ] at h
    obtain ⟨a, l, rfl, hread⟩ := Task.path_ask_done_iff.mp h
    rcases a with f | _ | e
    · obtain ⟨rfl, hr⟩ := Task.path_done_iff.mp hread
      cases hr
      exact .unread f
    · obtain ⟨rfl, hr⟩ := Task.path_done_iff.mp hread
      cases hr
      exact .absent
    · simp only [afterRead] at hread
      cases hu : decode (α := Volume) e.value with
      | error f =>
        rw [hu] at hread
        obtain ⟨rfl, hr⟩ := Task.path_done_iff.mp hread
        cases hr
        exact .unreadable hu
      | ok u =>
        rw [hu] at hread
        obtain ⟨l₁, l₂, v, rfl, hmutate, hwrite⟩ := Task.path_bind_done_iff.mp hread
        obtain ⟨q, w, rfl, hdone, hv⟩ := hmutate.of_inr
        rw [Task.inr_eq_done hdone.symm] at hv
        obtain ⟨b, l, rfl, hafter⟩ := Task.path_ask_done_iff.mp hwrite
        rcases b with f | k
        · simp only [afterWrite] at hafter
          split at hafter
          next =>
            have hlost := Course.lost (f := f) hu hv (ih hafter)
            simpa [attempt] using hlost
          next hlast =>
            obtain ⟨rfl, hr⟩ := Task.path_done_iff.mp hafter
            cases hr
            refine .refused hu hv fun hf => ?_
            simpa [hf] using hlast
        · obtain ⟨rfl, hr⟩ := Task.path_done_iff.mp hafter
          cases hr
          exact .written hu hv k

/-- Where every reading finds a volume and no writing fails but by a conflict, a change comes to a
volume, or it comes to a conflict. -/
theorem Course.result_of_readable {n : Nat} {l : List (Exchange (interface.sum M))}
    {r : Except Error (Option Volume)} (h : Course key mutate n l r)
    (hread : ∀ a : Except Error (Option Entry), ⟨.inl (.get key), a⟩ ∈ l →
      ∃ e u, a = .ok (some e) ∧ decode (α := Volume) e.value = .ok u)
    (hwrite : ∀ value index (f : Error),
      ⟨.inl (.compareAndSet key value index), (.error f : Except Error Nat)⟩ ∈ l →
        f = .conflict key) :
    (∃ v, r = .ok (some v)) ∨ r = .error (.conflict key) := by
  induction h with
  | spent => exact .inr rfl
  | unread f =>
    obtain ⟨e, u, ha, -⟩ := hread (.error f) List.mem_cons_self
    cases ha
  | absent =>
    obtain ⟨e, u, ha, -⟩ := hread (.ok none) List.mem_cons_self
    cases ha
  | @unreadable n e f hf =>
    obtain ⟨e', u, ha, hu⟩ := hread (.ok (some e)) List.mem_cons_self
    cases ha
    rw [hf] at hu
    cases hu
  | written hu hv k => exact .inl ⟨_, rfl⟩
  | @refused n e u v q f hu hv hlast =>
    rw [hwrite (Record.text v) e.index f (by simp [attempt])]
    exact .inr rfl
  | lost hu hv _ ih =>
    refine ih (fun a ha => ?_) fun value index f hf => ?_
    · exact hread a (List.mem_append_right _ ha)
    · exact hwrite value index f (List.mem_append_right _ hf)

end Space

/-! ## Rounds over memory -/

variable {ι α : Type} {s t : Situation Memory.shared M ι α}
variable {tr : List (Moment Memory.shared M ι)} {i : ι}

/-- A task makes no call on the store in these steps. -/
def Quiet (i : ι) (tr : List (Moment Memory.shared M ι)) : Prop :=
  ∀ mo ∈ tr, ∀ c x, mo.act ≠ .exchange i ⟨.inl c, x⟩

theorem Quiet.writer?_ne (h : Quiet i tr) {mo : Moment Memory.shared M ι} (hmo : mo ∈ tr) :
    writer? key mo ≠ some i := by
  intro hw
  obtain ⟨⟨c | c, x⟩, hact, hx⟩ := writer?_eq_some_iff.mp hw
  · exact h mo hmo c x hact
  · cases hx

variable [DecidableEq ι]

/-- The others that have written or deleted a key, in the order of their writes. -/
def rivals (i : ι) (key : String) (tr : List (Moment Memory.shared M ι)) : List ι :=
  (writers key tr).filter fun j => j ≠ i

/-- In these steps a change lost a round: it read the key and was refused to write it, and somebody
else wrote or deleted the key in between. -/
def LostRound (i : ι) (key : String) (tr : List (Moment Memory.shared M ι)) : Prop :=
  ∃ a read b write e value, tr = a ++ read :: (b ++ [write]) ∧ Quiet i a ∧ Quiet i b ∧
    read.act = .exchange i ⟨.inl (.get key), (.ok (some e) : Except Error (Option Entry))⟩ ∧
    write.act = .exchange i ⟨.inl (.compareAndSet key value e.index),
      (.error (.conflict key) : Except Error Nat)⟩ ∧
    ∃ mo ∈ b, ∃ j, j ≠ i ∧ writer? key mo = some j

/-- In these steps a change did nothing but lose so many rounds. -/
inductive LostRounds (i : ι) (key : String) : Nat → List (Moment Memory.shared M ι) → Prop
  | none {tr : List (Moment Memory.shared M ι)} (h : Quiet i tr) : LostRounds i key 0 tr
  | round {n : Nat} {a b : List (Moment Memory.shared M ι)} (h : LostRound i key a)
      (h' : LostRounds i key n b) : LostRounds i key (n + 1) (a ++ b)

theorem rivals_append (i : ι) (key : String) (a b : List (Moment Memory.shared M ι)) :
    rivals i key (a ++ b) = rivals i key a ++ rivals i key b := by
  rw [rivals, writers, List.filterMap_append, List.filter_append]
  rfl

theorem LostRound.exists_rival (h : LostRound i key tr) : ∃ j, j ∈ rivals i key tr := by
  obtain ⟨a, read, b, write, e, value, rfl, -, -, -, -, mo, hmo, j, hj, hw⟩ := h
  have hmem : j ∈ writers key (a ++ read :: (b ++ [write])) := by
    refine List.mem_filterMap.mpr ⟨mo, ?_, hw⟩
    simp [hmo]
  exact ⟨j, List.mem_filter.mpr ⟨hmem, by simpa using hj⟩⟩

theorem LostRounds.le_length {n : Nat} (h : LostRounds i key n tr) :
    n ≤ (rivals i key tr).length := by
  induction h with
  | none => exact Nat.zero_le _
  | round h _ ih =>
    obtain ⟨j, hj⟩ := h.exists_rival
    have hpos := List.length_pos_of_mem hj
    rw [rivals_append, List.length_append]
    omega

theorem get?_of_run (h : Run s tr t) (hnone : ∀ mo ∈ tr, writer? key mo = none) :
    Memory.get? t.state key = Memory.get? s.state key := by
  induction h with
  | nil => rfl
  | concat _ hm ih =>
    rw [get?_of_writer?_eq_none hm (hnone _ (by simp)),
      ih fun mo hmo => hnone mo (List.mem_append_left _ hmo)]

theorem quiet_of_private (h : Private (exchanges i tr)) : Quiet i tr := by
  intro mo hmo c x hact
  obtain ⟨y, hy⟩ := h _ (mem_exchanges.mpr ⟨mo, hmo, hact⟩)
  cases hy

/-- A round whose writing was refused is lost: had nobody written the key since the reading, the
writing would have been carried out. -/
theorem lostRound_of_attempt (h : Run s tr t) {e : Entry} {q : List (Exchange M)} {v : Volume}
    {f : Error} {l : List (Exchange (interface.sum M))}
    (hl : exchanges i tr = Space.attempt key e q v (.error f) ++ l) :
    f = .conflict key ∧ ∃ a b u, tr = a ++ b ∧ LostRound i key a ∧ Run u b t ∧
      exchanges i b = l := by
  rw [Space.attempt, List.cons_append, List.append_assoc, List.singleton_append] at hl
  obtain ⟨a, read, rest, rfl, hread, ha, hrest⟩ := exists_split (p := []) hl
  obtain ⟨b, write, c, rfl, hwrite, hb, hc⟩ := exists_split hrest
  obtain ⟨t₁, t₂, -, hrs, hrun⟩ := h.of_append_cons
  obtain ⟨t₃, t₄, hbrun, hws, hcrun⟩ := hrun.of_append_cons
  have hqa : Quiet i a := quiet_of_private (by simp [ha, Private])
  have hqb : Quiet i b := quiet_of_private (by rw [hb]; exact private_map_inr q)
  obtain ⟨hgot, hsame⟩ := Prod.mk.inj (hrs.answer_eq hread)
  obtain ⟨hindex, hf, -⟩ := Memory.step_compareAndSet_error (hws.answer_eq hwrite)
  subst hf
  have hget : Memory.get? t₂.state key = some e := by
    rw [← hrs.after_eq, ← hsame]
    exact Except.ok.inj hgot
  have hrival : ∃ mo ∈ b, ∃ j, j ≠ i ∧ writer? key mo = some j := by
    by_contra hnone
    refine hindex ?_
    have hquiet : ∀ mo ∈ b, writer? key mo = none := by
      intro mo hmo
      refine Option.eq_none_iff_forall_ne_some.mpr fun j hj => ?_
      refine hnone ⟨mo, hmo, j, ?_, hj⟩
      rintro rfl
      exact hqb.writer?_ne hmo hj
    rw [hws.before_eq, get?_of_run hbrun hquiet, hget]
    rfl
  refine ⟨rfl, a ++ read :: (b ++ [write]), c, t₄, by simp, ?_, hcrun, hc⟩
  exact ⟨a, read, b, write, e, _, rfl, hqa, hqb, hread, hwrite, hrival⟩

/-- Over memory, a change that comes to a conflict has lost all of its rounds. -/
theorem lostRounds_of_course {n : Nat} {l : List (Exchange (interface.sum M))} {k : String}
    (hc : Space.Course key mutate n l (.error (.conflict k))) (h : Run s tr t)
    (hl : exchanges i tr = l) : k = key ∧ LostRounds i key n tr := by
  generalize hr : (.error (.conflict k) : Except Error (Option Volume)) = r at hc
  induction hc generalizing s tr with
  | spent =>
    cases hr
    exact ⟨rfl, .none (quiet_of_private (by simp [hl, Private]))⟩
  | unread f =>
    obtain ⟨a, read, b, rfl, hread, -, -⟩ := exists_split (p := []) hl
    obtain ⟨t₁, t₂, -, hrs, -⟩ := h.of_append_cons
    cases (Prod.mk.inj (hrs.answer_eq hread)).1
  | absent => cases hr
  | @unreadable n e f hf =>
    cases hr
    rw [Space.decode] at hf
    cases hparse : Record.ofString (α := Volume) e.value <;> rw [hparse] at hf <;> cases hf
  | written hu hv k => cases hr
  | @refused n e u v q f hu hv hlast =>
    cases hr
    obtain ⟨hf, a, b, w, rfl, hlost, -, hb⟩ := lostRound_of_attempt (l := []) h (by simpa using hl)
    cases hf
    rw [hlast rfl]
    exact ⟨rfl, .round hlost (.none (quiet_of_private (by simp [hb, Private])))⟩
  | lost hu hv _ ih =>
    obtain ⟨-, a, b, w, rfl, hlost, hrun, hb⟩ := lostRound_of_attempt h hl
    obtain ⟨hk, hrest⟩ := ih hrun hb hr
    exact ⟨hk, .round hlost hrest⟩

/-! ## As many rivals are enough -/

/-- Writes one text again and again. -/
def rewrites (key value : String) :
    Nat → Task (interface.sum Interface.nothing) (Except Error (Option Volume))
  | 0 => .done (.ok none)
  | n + 1 => .ask (.inl (.set key value)) fun _ => rewrites key value n

section Rewrites

variable {s : Situation Memory.shared Interface.nothing Bool (Except Error (Option Volume))}
variable {m : Memory} {v : Volume} {k n : Nat}

theorem exists_refused_round (hs : s.state = m) (hget : m.get? key = some ⟨Record.text v, k⟩)
    (hk : k ≤ m.index)
    (hchange : s.tasks false = (Space.changeRounds key (fun u => .done u) (n + 1)).run)
    (hrival : s.tasks true = rewrites key (Record.text v) (n + 1)) :
    ∃ tr t, Run s tr t ∧ t.state = m.write key (Record.text v) ∧
      t.tasks false = Space.afterWrite key (fun u => .done u) n v (.error (.conflict key)) ∧
      t.tasks true = rewrites key (Record.text v) n := by
  have hread : Memory.step (.get key) m = (.ok (some ⟨Record.text v, k⟩), m) := by
    simp [Memory.step, hget]
  have hset : Memory.step (.set key (Record.text v)) m =
      (.ok (m.index + 1), m.write key (Record.text v)) := rfl
  have hrefuse : Memory.step (.compareAndSet key (Record.text v) k) (m.write key (Record.text v)) =
      (.error (.conflict key), m.write key (Record.text v)) := by
    have hne : m.index + 1 ≠ k := by omega
    simp [Memory.step, hne]
  rw [Space.changeRounds_succ] at hchange
  obtain ⟨t₁, h₁, hs₁, hf₁, ho₁⟩ := (Run.nil (s := s)).exists_shared hchange
    ((congrArg (Memory.step _) hs).trans hread)
  have hf₁' := hf₁.trans (Space.afterRead_text key (fun u => .done u) n v k)
  obtain ⟨t₂, h₂, hs₂, ht₂, ho₂⟩ := h₁.exists_shared ((ho₁ true (by decide)).trans hrival)
    ((congrArg (Memory.step _) hs₁).trans hset)
  obtain ⟨t₃, h₃, hs₃, hf₃, ho₃⟩ := h₂.exists_shared ((ho₂ false (by decide)).trans hf₁')
    ((congrArg (Memory.step _) hs₂).trans hrefuse)
  exact ⟨_, t₃, h₃, hs₃, hf₃, (ho₃ true (by decide)).trans ht₂⟩

/-- A rival that writes within each round makes a change give up. -/
theorem exists_conflict (hs : s.state = m) (hget : m.get? key = some ⟨Record.text v, k⟩)
    (hk : k ≤ m.index)
    (hchange : s.tasks false = (Space.changeRounds key (fun u => .done u) (n + 1)).run)
    (hrival : s.tasks true = rewrites key (Record.text v) (n + 1)) :
    ∃ tr t, Run s tr t ∧ t.tasks false = .done (.error (.conflict key)) := by
  induction n generalizing s m k with
  | zero =>
    obtain ⟨tr, t, hrun, -, hdone, -⟩ := exists_refused_round hs hget hk hchange hrival
    exact ⟨tr, t, hrun, hdone⟩
  | succ n ih =>
    obtain ⟨tr, t, hrun, ht, hnext, hrival'⟩ := exists_refused_round hs hget hk hchange hrival
    have hget' : (m.write key (Record.text v)).get? key = some ⟨Record.text v, m.index + 1⟩ := by
      rw [Memory.get?_write, if_pos rfl]
    obtain ⟨tr', t', hrun', hdone⟩ := ih ht hget' (Nat.le_refl _) hnext hrival'
    exact ⟨tr ++ tr', t', hrun.append hrun', hdone⟩

end Rewrites

end HostAgent.Store
