import HostAgent.Proofs.Store.Rounds

namespace HostAgent.Store.Space

/-!
# A change, round by round

Whatever the store answers, a change goes through one to five rounds. All but the last have ended in
a conflict, and the last one says what the change comes to. In each of them the volume is read once,
changed once, and written once under the index of that very reading.
-/

variable {M : Interface} {key : String} {mutate : Volume → Task M Volume}
variable {l : List (Exchange (interface.sum M))} {r : Except Error (Option Volume)} {n : Nat}

/-- What a round comes to. -/
inductive Verdict where
  /-- The change is over. -/
  | ends (r : Except Error (Option Volume))
  /-- Somebody else wrote the volume first. -/
  | conflicts (f : Error)

def reading (key : String) (a : Except Error (Option Entry)) : Exchange (interface.sum M) :=
  ⟨.inl (.get key), a⟩

/-- The ways in which a round can go. -/
inductive Round (key : String) (mutate : Volume → Task M Volume) :
    List (Exchange (interface.sum M)) → Verdict → Prop
  | unread (f : Error) : Round key mutate [reading key (.error f)] (.ends (.error f))
  | absent : Round key mutate [reading key (.ok none)] (.ends (.ok none))
  | unreadable {e : Entry} {f : Error} (hf : decode (α := Volume) e.value = .error f) :
    Round key mutate [reading key (.ok (some e))] (.ends (.error f))
  | written {e : Entry} {u v : Volume} {q : List (Exchange M)} (hu : decode e.value = .ok u)
      (hv : Task.Path (mutate u) q (.done v)) (k : Nat) :
    Round key mutate (attempt key e q v (.ok k)) (.ends (.ok (some v)))
  | refused {e : Entry} {u v : Volume} {q : List (Exchange M)} {f : Error}
      (hu : decode e.value = .ok u) (hv : Task.Path (mutate u) q (.done v))
      (hf : f.isConflict = false) :
    Round key mutate (attempt key e q v (.error f)) (.ends (.error f))
  | lost {e : Entry} {u v : Volume} {q : List (Exchange M)} {f : Error}
      (hu : decode e.value = .ok u) (hv : Task.Path (mutate u) q (.done v))
      (hf : f.isConflict = true) :
    Round key mutate (attempt key e q v (.error f)) (.conflicts f)

/-- What a change comes to by the last of so many rounds that it has left. A conflict is the result
if no round is left. -/
def Last (key : String) (mutate : Volume → Task M Volume) (left : Nat)
    (l : List (Exchange (interface.sum M))) (r : Except Error (Option Volume)) : Prop :=
  Round key mutate l (.ends r) ∨ left = 0 ∧ ∃ f, Round key mutate l (.conflicts f) ∧ r = .error f

/-! ## One round -/

theorem afterWrite_of_lost {v : Volume} {f : Error} (hf : f.isConflict = true) (hn : n ≠ 0) :
    afterWrite key mutate n v (.error f) = (changeRounds key mutate n).run := by
  rw [afterWrite, if_pos (by simp [hf, hn])]

theorem afterWrite_of_last {v : Volume} {f : Error} (hlast : f.isConflict = true → n = 0) :
    afterWrite key mutate n v (.error f) = .done (.error f) := by
  rw [afterWrite, if_neg (by simpa using hlast)]

/-- A round that comes to its writing leads to what the change makes of that. -/
theorem path_attempt (key : String) (n : Nat) {e : Entry} {u v : Volume} {q : List (Exchange M)}
    (hu : decode e.value = .ok u) (hv : Task.Path (mutate u) q (.done v)) (b : Except Error Nat) :
    Task.Path (changeRounds key mutate (n + 1)).run (attempt key e q v b)
      (afterWrite key mutate n v b) := by
  have hwrite : Task.Path (.ask (I := interface.sum M)
      (.inl (.compareAndSet key (Record.text v) e.index)) (afterWrite key mutate n v))
      [⟨.inl (.compareAndSet key (Record.text v) e.index), b⟩] (afterWrite key mutate n v b) :=
    .cons _ (.nil _)
  have hread : Task.Path (afterRead key mutate n (.ok (some e)))
      (q.map Task.Exchange.inr ++ [⟨.inl (.compareAndSet key (Record.text v) e.index), b⟩])
      (afterWrite key mutate n v b) := by
    simp only [afterRead, hu]
    exact (hv.inr.bind _).append hwrite
  rw [changeRounds_succ]
  exact .cons (I := interface.sum M) _ hread

theorem path_of_ends (n : Nat) (h : Round key mutate l (.ends r)) :
    Task.Path (changeRounds key mutate (n + 1)).run l (.done r) := by
  cases h with
  | unread f =>
    rw [changeRounds_succ]
    exact .cons (I := interface.sum M) _ (.nil _)
  | absent =>
    rw [changeRounds_succ]
    exact .cons (I := interface.sum M) _ (.nil _)
  | unreadable hf =>
    rw [changeRounds_succ]
    refine .cons (I := interface.sum M) _ ?_
    simp only [afterRead, hf]
    exact .nil _
  | written hu hv k => exact path_attempt key n hu hv (.ok k)
  | @refused e u v q f hu hv hf =>
    have hattempt := path_attempt key n hu hv (.error f)
    rwa [afterWrite_of_last (by simp [hf])] at hattempt

theorem path_of_conflicts {f : Error} (hn : n ≠ 0) (h : Round key mutate l (.conflicts f)) :
    Task.Path (changeRounds key mutate (n + 1)).run l (changeRounds key mutate n).run := by
  cases h with
  | @lost e u v q f hu hv hf =>
    have hattempt := path_attempt key n hu hv (.error f)
    rwa [afterWrite_of_lost hf hn] at hattempt

theorem path_of_last_conflicts {f : Error} (h : Round key mutate l (.conflicts f)) :
    Task.Path (changeRounds key mutate 1).run l (.done (.error f)) := by
  cases h with
  | @lost e u v q f hu hv hf =>
    have hattempt := path_attempt key 0 hu hv (.error f)
    rwa [afterWrite_of_last fun _ => rfl] at hattempt

/-- A change with so many rounds and one left makes its last round, or loses one and goes on. -/
def LastOrLost (key : String) (mutate : Volume → Task M Volume) (n : Nat)
    (l : List (Exchange (interface.sum M))) (r : Except Error (Option Volume)) : Prop :=
  Last key mutate n l r ∨
    n ≠ 0 ∧ ∃ l₁ l₂ f, l = l₁ ++ l₂ ∧ Round key mutate l₁ (.conflicts f) ∧
      Task.Path (changeRounds key mutate n).run l₂ (.done r)

/-- What comes of a round that wrote, by the answer to its writing. -/
theorem lastOrLost_attempt {e : Entry} {u v : Volume} {q : List (Exchange M)}
    {b : Except Error Nat} (hu : decode e.value = .ok u) (hv : Task.Path (mutate u) q (.done v))
    (hafter : Task.Path (afterWrite key mutate n v b) l (.done r)) :
    LastOrLost key mutate n (attempt key e q v b ++ l) r := by
  rcases b with f | k
  · by_cases hlost : f.isConflict = true ∧ n ≠ 0
    · obtain ⟨hf, hn⟩ := hlost
      rw [afterWrite_of_lost hf hn] at hafter
      exact .inr ⟨hn, attempt key e q v (.error f), l, f, rfl, .lost hu hv hf, hafter⟩
    · have hlast : f.isConflict = true → n = 0 := by simpa using hlost
      rw [afterWrite_of_last hlast] at hafter
      obtain ⟨rfl, hr⟩ := Task.path_done_iff.mp hafter
      cases hr
      rw [List.append_nil]
      by_cases hf : f.isConflict = true
      · exact .inl (.inr ⟨hlast hf, f, .lost hu hv hf, rfl⟩)
      · exact .inl (.inl (.refused hu hv (Bool.eq_false_iff.mpr hf)))
  · obtain ⟨rfl, hr⟩ := Task.path_done_iff.mp hafter
    cases hr
    rw [List.append_nil]
    exact .inl (.inl (.written hu hv k))

theorem lastOrLost_of_path (h : Task.Path (changeRounds key mutate (n + 1)).run l (.done r)) :
    LastOrLost key mutate n l r := by
  rw [changeRounds_succ] at h
  obtain ⟨a, l, rfl, hread⟩ := Task.path_ask_done_iff.mp h
  rcases a with f | _ | e
  · obtain ⟨rfl, hr⟩ := Task.path_done_iff.mp hread
    cases hr
    exact .inl (.inl (.unread f))
  · obtain ⟨rfl, hr⟩ := Task.path_done_iff.mp hread
    cases hr
    exact .inl (.inl .absent)
  simp only [afterRead] at hread
  cases hu : decode (α := Volume) e.value with
  | error f =>
    rw [hu] at hread
    obtain ⟨rfl, hr⟩ := Task.path_done_iff.mp hread
    cases hr
    exact .inl (.inl (.unreadable hu))
  | ok u =>
    rw [hu] at hread
    obtain ⟨l₁, l₂, v, rfl, hmutate, hwrite⟩ := Task.path_bind_done_iff.mp hread
    obtain ⟨q, w, rfl, hdone, hv⟩ := hmutate.of_inr
    rw [Task.inr_eq_done hdone.symm] at hv
    obtain ⟨b, l, rfl, hafter⟩ := Task.path_ask_done_iff.mp hwrite
    have hround := lastOrLost_attempt hu hv hafter
    simpa [attempt] using hround

theorem path_changeRounds_succ_iff :
    Task.Path (changeRounds key mutate (n + 1)).run l (.done r) ↔ LastOrLost key mutate n l r := by
  refine ⟨lastOrLost_of_path, ?_⟩
  rintro ((h | ⟨rfl, f, h, rfl⟩) | ⟨hn, l₁, l₂, f, rfl, h, hnext⟩)
  · exact path_of_ends n h
  · exact path_of_last_conflicts h
  · exact (path_of_conflicts hn h).append hnext

/-! ## All rounds -/

theorem path_changeRounds_iff (n : Nat) :
    Task.Path (changeRounds key mutate (n + 1)).run l (.done r) ↔
      ∃ (lost : List (List (Exchange (interface.sum M))))
          (last : List (Exchange (interface.sum M))),
        l = lost.flatten ++ last ∧ lost.length ≤ n ∧
          (∀ x ∈ lost, ∃ f, Round key mutate x (.conflicts f)) ∧
            Last key mutate (n - lost.length) last r := by
  induction n generalizing l with
  | zero =>
    rw [path_changeRounds_succ_iff]
    constructor
    · rintro (h | ⟨h, -⟩)
      · exact ⟨[], l, rfl, Nat.le_refl 0, List.forall_mem_nil _, h⟩
      · exact absurd rfl h
    · rintro ⟨lost, last, rfl, hlength, -, h⟩
      obtain rfl := List.length_eq_zero_iff.mp (Nat.le_zero.mp hlength)
      exact .inl h
  | succ n ih =>
    rw [path_changeRounds_succ_iff]
    constructor
    · rintro (h | ⟨-, l₁, l₂, f, rfl, h, hnext⟩)
      · exact ⟨[], l, rfl, Nat.zero_le _, List.forall_mem_nil _, h⟩
      · obtain ⟨lost, last, rfl, hlength, hlost, hlast⟩ := ih.mp hnext
        refine ⟨l₁ :: lost, last, by simp, Nat.succ_le_succ hlength,
          List.forall_mem_cons.mpr ⟨⟨f, h⟩, hlost⟩, ?_⟩
        rwa [List.length_cons, Nat.add_sub_add_right]
    · rintro ⟨lost, last, rfl, hlength, hlost, hlast⟩
      cases lost with
      | nil => exact .inl hlast
      | cons x lost =>
        obtain ⟨⟨f, hx⟩, hlost⟩ := List.forall_mem_cons.mp hlost
        rw [List.length_cons, Nat.add_sub_add_right] at hlast
        refine .inr ⟨Nat.succ_ne_zero n, x, lost.flatten ++ last, f, by simp, hx, ih.mpr ?_⟩
        exact ⟨lost, last, rfl, Nat.le_of_succ_le_succ hlength, hlost, hlast⟩

/-- The calls of a round: a reading of the key and a conditional writing of it. -/
def OfRound (key : String) : Call → Prop
  | .get k | .compareAndSet k _ _ => k = key
  | .list _ | .set _ _ | .create _ _ | .delete _ => False

/-- So many exchanges at most with the store, all of them of rounds. -/
def Frugal (key : String) (n : Nat) (l : List (Exchange interface)) : Prop :=
  l.length ≤ n ∧ ∀ x ∈ l, OfRound key x.1

theorem frugal_nil (key : String) (n : Nat) : Frugal key n [] :=
  ⟨Nat.zero_le n, List.forall_mem_nil _⟩

theorem Frugal.cons {l : List (Exchange interface)} {x : Exchange interface}
    (h : Frugal key n l) (hx : OfRound key x.1) : Frugal key (n + 1) (x :: l) :=
  ⟨Nat.succ_le_succ h.1, List.forall_mem_cons.mpr ⟨hx, h.2⟩⟩

theorem frugal_afterWrite {v : Volume} {b : Except Error Nat}
    {t : Task (interface.sum M) (Except Error (Option Volume))}
    (hnext : ∀ l, Task.Path (changeRounds key mutate n).run l t →
      Frugal key (2 * n) (Task.firsts l))
    (h : Task.Path (afterWrite key mutate n v b) l t) : Frugal key (2 * n) (Task.firsts l) := by
  rcases b with f | k
  · simp only [afterWrite] at h
    split at h
    · exact hnext l h
    · obtain ⟨rfl, -⟩ := Task.path_done_iff.mp h
      exact frugal_nil key _
  · obtain ⟨rfl, -⟩ := Task.path_done_iff.mp h
    exact frugal_nil key _

theorem frugal_afterRead {a : Except Error (Option Entry)}
    {t : Task (interface.sum M) (Except Error (Option Volume))}
    (hnext : ∀ l, Task.Path (changeRounds key mutate n).run l t →
      Frugal key (2 * n) (Task.firsts l))
    (h : Task.Path (afterRead key mutate n a) l t) : Frugal key (2 * n + 1) (Task.firsts l) := by
  rcases a with f | _ | e
  · obtain ⟨rfl, -⟩ := Task.path_done_iff.mp h
    exact frugal_nil key _
  · obtain ⟨rfl, -⟩ := Task.path_done_iff.mp h
    exact frugal_nil key _
  simp only [afterRead] at h
  cases hu : decode (α := Volume) e.value with
  | error f =>
    rw [hu] at h
    obtain ⟨rfl, -⟩ := Task.path_done_iff.mp h
    exact frugal_nil key _
  | ok u =>
    rw [hu] at h
    rcases h.of_bind with ⟨c, next, rfl, hmutate⟩ | ⟨l₁, l₂, v, rfl, hmutate, hwrite⟩
    · obtain ⟨q, -, rfl, -, -⟩ := hmutate.of_inr
      rw [Task.firsts_map_inr]
      exact frugal_nil key _
    · obtain ⟨q, -, rfl, -, -⟩ := hmutate.of_inr
      rw [Task.firsts_append, Task.firsts_map_inr, List.nil_append]
      rcases Task.path_ask_iff.mp hwrite with ⟨rfl, -⟩ | ⟨b, l, rfl, hafter⟩
      · exact frugal_nil key _
      · exact (frugal_afterWrite hnext hafter).cons rfl

/-- However far a change has come, it has made two calls for each of its rounds at most. -/
theorem frugal_changeRounds {t : Task (interface.sum M) (Except Error (Option Volume))}
    (h : Task.Path (changeRounds key mutate n).run l t) : Frugal key (2 * n) (Task.firsts l) := by
  induction n generalizing l with
  | zero =>
    obtain ⟨rfl, -⟩ := Task.path_done_iff.mp h
    exact frugal_nil key _
  | succ n ih =>
    rw [changeRounds_succ] at h
    rcases Task.path_ask_iff.mp h with ⟨rfl, -⟩ | ⟨a, l, rfl, hread⟩
    · exact frugal_nil key _
    · exact (frugal_afterRead (fun _ => ih) hread).cons rfl

/-- What a change does and what it comes to, whatever the store answers: up to four rounds are lost
to conflicts, and the one after them is the last, so that a conflict in the fifth is the result. In
every world it comes to an end like that. At no time has anything been asked of the store but to
read the key of the given name and to write it on condition, ten times in all at most. -/
theorem changes_go_by_rounds (s : Space) (name : String) (mutate : Volume → Task M Volume) :
    (∀ l r, Task.Path (s.changeVolume name mutate).run l (.done r) ↔
      ∃ (lost : List (List (Exchange (interface.sum M))))
          (last : List (Exchange (interface.sum M))),
        l = lost.flatten ++ last ∧ lost.length ≤ 4 ∧
          (∀ x ∈ lost, ∃ f, Round (s.volumeKey name) mutate x (.conflicts f)) ∧
            Last (s.volumeKey name) mutate (4 - lost.length) last r) ∧
      (∀ {σ : Type} (world : (c : (interface.sum M).Call) → σ → (interface.sum M).Answer c × σ)
        (x : σ), ∃ l, Task.Path (s.changeVolume name mutate).run l
          (.done ((s.changeVolume name mutate).run.run world x).1)) ∧
      ∀ l t, Task.Path (s.changeVolume name mutate).run l t →
        Frugal (s.volumeKey name) 10 (Task.firsts l) :=
  ⟨fun _ _ => path_changeRounds_iff 4, fun world x => Task.exists_path_run world _ x,
    fun _ _ => frugal_changeRounds⟩

def sized (size : UInt64) : Volume := { Volume.blank with name := "v", size := size }

def renamed (v : Volume) : Volume := { v with name := "w" }

/-- The volume is read under an index, and it is written under its old key with its new name. -/
def newName (size : UInt64) (index : Nat) (b : Except Error Nat) :
    List (Exchange (interface.sum Interface.nothing)) :=
  attempt (volumeKey ⟨"/c"⟩ "v") ⟨Record.text (sized size), index⟩ [] (renamed (sized size)) b

/-- A change loses a round to a rival that resizes the volume, and renames what the rival wrote. -/
theorem changes_go_by_rounds_renamed :
    Task.Path (changeVolume ⟨"/c"⟩ "v" fun v => .done (renamed v)).run
        (newName 8 3 (.error (.conflict "v")) ++ newName 9 5 (.ok 6))
        (.done (.ok (some (renamed (sized 9))))) ∧
      Frugal (volumeKey ⟨"/c"⟩ "v") 10
        (Task.firsts (newName 8 3 (.error (.conflict "v")) ++ newName 9 5 (.ok 6))) := by
  obtain ⟨hrounds, -, hfrugal⟩ := changes_go_by_rounds ⟨"/c"⟩ "v"
    fun v => (.done (renamed v) : Task Interface.nothing Volume)
  have hwritten : Round (volumeKey ⟨"/c"⟩ "v")
      (fun v => (.done (renamed v) : Task Interface.nothing Volume)) (newName 9 5 (.ok 6))
      (.ends (.ok (some (renamed (sized 9))))) := by
    refine .written (u := sized 9) ?_ ?_ 6
    · exact decode_text (sized 9)
    · exact .nil _
  have hpath := (hrounds (newName 8 3 (.error (.conflict "v")) ++ newName 9 5 (.ok 6))
    (.ok (some (renamed (sized 9))))).mpr ⟨[newName 8 3 (.error (.conflict "v"))],
      newName 9 5 (.ok 6), by rw [List.flatten_singleton], by decide,
      List.forall_mem_singleton.mpr ⟨_, .lost (decode_text _) (.nil _) rfl⟩,
      .inl hwritten⟩
  exact ⟨hpath, hfrugal _ _ hpath⟩

end HostAgent.Store.Space
