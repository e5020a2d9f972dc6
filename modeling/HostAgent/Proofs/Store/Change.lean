import HostAgent.Proofs.Record.Kept
import HostAgent.Proofs.Store.Memory
import HostAgent.Proofs.Store.Space
import HostAgent.Proofs.Task.Parts
import HostAgent.Store.Space

namespace HostAgent.Store

/-!
# Changing a volume

On each of its paths, a change reads the volume, changes what it has read, and writes the outcome
under the index of that reading. It writes once at most, and it has succeeded as soon as it wrote.
-/

variable {M : Interface} {key : String} {mutate : Volume → Task M Volume}

/-- The key that an exchange with the store has written or deleted. -/
def written? : Exchange (interface.sum M) → Option String
  | ⟨.inl c, a⟩ => c.written? a
  | ⟨.inr _, _⟩ => none

def Unwritten (l : List (Exchange (interface.sum M))) : Prop := ∀ x ∈ l, written? x = none

def Private (l : List (Exchange (interface.sum M))) : Prop :=
  ∀ x ∈ l, ∃ y, x = Task.Exchange.inr y

theorem Unwritten.append {l l' : List (Exchange (interface.sum M))} (h : Unwritten l)
    (h' : Unwritten l') : Unwritten (l ++ l') := by
  intro x hx
  rcases List.mem_append.mp hx with hx | hx
  · exact h x hx
  · exact h' x hx

theorem Private.unwritten {l : List (Exchange (interface.sum M))} (h : Private l) :
    Unwritten l := by
  intro x hx
  obtain ⟨y, rfl⟩ := h x hx
  rfl

theorem private_map_inr (q : List (Exchange M)) : Private (q.map Task.Exchange.inr) := by
  intro x hx
  obtain ⟨y, -, rfl⟩ := List.mem_map.mp hx
  exact ⟨y, rfl⟩

namespace Space

/-- What a change does once it knows whether its writing was carried out. -/
def afterWrite (key : String) (mutate : Volume → Task M Volume) (n : Nat) (v : Volume) :
    Except Error Nat → Task (interface.sum M) (Except Error (Option Volume))
  | .ok _ => .done (.ok (some v))
  | .error e =>
    if e.isConflict && n != 0 then (changeRounds key mutate n).run else .done (.error e)

def afterRead (key : String) (mutate : Volume → Task M Volume) (n : Nat) :
    Except Error (Option Entry) → Task (interface.sum M) (Except Error (Option Volume))
  | .error e => .done (.error e)
  | .ok none => .done (.ok none)
  | .ok (some e) =>
    match decode (α := Volume) e.value with
    | .error f => .done (.error f)
    | .ok u => (mutate u).inr.bind fun v =>
      .ask (.inl (.compareAndSet key (Record.text v) e.index)) (afterWrite key mutate n v)

theorem afterRead_text (key : String) (mutate : Volume → Task M Volume) (n : Nat) (u : Volume)
    (index : Nat) :
    afterRead key mutate n (.ok (some ⟨Record.text u, index⟩)) =
      (mutate u).inr.bind fun v => .ask (I := interface.sum M)
        (.inl (.compareAndSet key (Record.text v) index)) (afterWrite key mutate n v) := by
  simp only [afterRead, decode_text]

/-- The writing of a round, and what becomes of the change after it. -/
def writeBack (key : String) (mutate : Volume → Task M Volume) (n : Nat) (v : Volume)
    (index : Nat) : Change M (Option Volume) := do
  match ← ExceptT.lift (Change.ofOp (compareAndSet key (Record.text v) index)).run with
  | .ok _ => return some v
  | .error e => if e.isConflict && n != 0 then changeRounds key mutate n else throw e

theorem writeBack_run (key : String) (mutate : Volume → Task M Volume) (n : Nat) (v : Volume)
    (index : Nat) :
    (writeBack key mutate n v index).run =
      .ask (.inl (.compareAndSet key (Record.text v) index)) (afterWrite key mutate n v) := by
  refine congrArg
    (Task.ask (I := interface.sum M) (.inl (.compareAndSet key (Record.text v) index)))
    (funext fun b => ?_)
  match b with
  | .ok k => rfl
  | .error e =>
    change (if e.isConflict && n != 0 then changeRounds key mutate n
      else throw e : Change M (Option Volume)).run = _
    simp only [afterWrite]
    split <;> rfl

theorem changeRounds_succ (key : String) (mutate : Volume → Task M Volume) (n : Nat) :
    (changeRounds key mutate (n + 1)).run =
      .ask (.inl (.get key)) (afterRead key mutate n) := by
  have hfetch : (Change.ofOp (M := M) (fetch (α := Volume) key)).run =
      .ask (.inl (.get key)) fun a => .done (fetched a) := by
    rw [Change.ofOp, fetch_run]
    rfl
  rw [changeRounds, ExceptT.run_bind, hfetch]
  refine congrArg (Task.ask (I := interface.sum M) (.inl (.get key))) (funext fun a => ?_)
  match a with
  | .error e => rfl
  | .ok none => rfl
  | .ok (some e) =>
    simp only [afterRead, fetched]
    cases decode (α := Volume) e.value with
    | error f => rfl
    | ok u =>
      change (Change.ofTask (mutate u) >>= fun v => writeBack key mutate n v e.index).run = _
      rw [ExceptT.run_bind]
      change ((mutate u).inr.bind fun v => Task.done (Except.ok v)).bind _ = _
      rw [Task.bind_assoc]
      exact congrArg _ (funext fun v => writeBack_run key mutate n v e.index)

/-- Where the other part is carried out on a third one, the change is made by what the changing of
the volume becomes there. -/
theorem changeRounds_onSecond {N : Interface} (h : (c : M.Call) → Task N (M.Answer c))
    (key : String) (mutate : Volume → Task M Volume) (n : Nat) :
    (changeRounds key mutate n).run.onSecond h =
      (changeRounds key (fun v => (mutate v).interpret h) n).run := by
  induction n with
  | zero => rfl
  | succ n ih =>
    have hwrite : ∀ v b, (afterWrite key mutate n v b).onSecond h =
        afterWrite key (fun v => (mutate v).interpret h) n v b := by
      intro v b
      rcases b with e | k
      · simp only [afterWrite]
        split
        · exact ih
        · rfl
      · rfl
    have hread : ∀ a, (afterRead key mutate n a).onSecond h =
        afterRead key (fun v => (mutate v).interpret h) n a := by
      intro a
      rcases a with e | _ | e
      · rfl
      · rfl
      · simp only [afterRead]
        cases decode (α := Volume) e.value with
        | error f => rfl
        | ok u =>
          simp only [Task.onSecond_bind, Task.onSecond_inr]
          refine congrArg _ (funext fun v => ?_)
          exact congrArg (Task.ask (I := interface.sum N)
            (.inl (.compareAndSet key (Record.text v) e.index))) (funext (hwrite v))
    rw [changeRounds_succ, changeRounds_succ]
    exact congrArg (Task.ask (I := interface.sum N) (.inl (.get key))) (funext hread)

/-- The exchanges of a change that replaced the volume which it read by the given one. -/
def Replacement (key : String) (mutate : Volume → Task M Volume) (v : Volume)
    (l : List (Exchange (interface.sum M))) : Prop :=
  ∃ p q e u k, l = p ++ ⟨.inl (.get key), (.ok (some e) : Except Error (Option Entry))⟩ ::
      (q ++ [⟨.inl (.compareAndSet key (Record.text v) e.index), (.ok k : Except Error Nat)⟩]) ∧
    Unwritten p ∧ Private q ∧ decode (α := Volume) e.value = .ok u ∧ (mutate u).Yields v

theorem Replacement.append {v : Volume} {p l : List (Exchange (interface.sum M))}
    (hp : Unwritten p) (h : Replacement key mutate v l) : Replacement key mutate v (p ++ l) := by
  obtain ⟨p', q, e, u, k, rfl, hp', hq, hu, hv⟩ := h
  exact ⟨p ++ p', q, e, u, k, by simp, hp.append hp', hq, hu, hv⟩

/-- Such a change has written once, and last. -/
theorem Replacement.last {v : Volume} {l : List (Exchange (interface.sum M))}
    (h : Replacement key mutate v l) :
    ∃ p x, l = p ++ [x] ∧ Unwritten p ∧ written? x = some key := by
  obtain ⟨p, q, e, u, k, rfl, hp, hq, -, -⟩ := h
  refine ⟨p ++ ⟨.inl (.get key), .ok (some e)⟩ :: q,
    ⟨.inl (.compareAndSet key (Record.text v) e.index), .ok k⟩, by simp, hp.append ?_, rfl⟩
  intro x hx
  rcases List.mem_cons.mp hx with rfl | hx
  · rfl
  · exact hq.unwritten x hx

/-- Nothing was written, and the task has not come to a volume. -/
def Idle (l : List (Exchange (interface.sum M)))
    (t : Task (interface.sum M) (Except Error (Option Volume))) : Prop :=
  Unwritten l ∧ ∀ v, t ≠ .done (.ok (some v))

theorem path_afterWrite {n index : Nat} {v : Volume} {l : List (Exchange (interface.sum M))}
    {t : Task (interface.sum M) (Except Error (Option Volume))}
    (h : Task.Path (.ask (I := interface.sum M) (.inl (.compareAndSet key (Record.text v) index))
      (afterWrite key mutate n v)) l t) :
    Idle l t ∨
      (∃ k, l = [⟨.inl (.compareAndSet key (Record.text v) index), (.ok k : Except Error Nat)⟩] ∧
        t = .done (.ok (some v))) ∨
      ∃ e l', l = ⟨.inl (.compareAndSet key (Record.text v) index),
        (.error e : Except Error Nat)⟩ :: l' ∧ Task.Path (changeRounds key mutate n).run l' t := by
  rcases Task.path_ask_iff.mp h with ⟨rfl, rfl⟩ | ⟨a, l', rfl, hnext⟩
  · exact .inl ⟨by simp [Unwritten], by simp⟩
  match a with
  | .ok k =>
    obtain ⟨rfl, rfl⟩ := Task.path_done_iff.mp hnext
    exact .inr (.inl ⟨k, rfl, rfl⟩)
  | .error e =>
    simp only [afterWrite] at hnext
    split at hnext
    · exact .inr (.inr ⟨e, l', rfl, hnext⟩)
    · obtain ⟨rfl, rfl⟩ := Task.path_done_iff.mp hnext
      exact .inl ⟨by simp [Unwritten, written?, Call.written?], by simp⟩

theorem path_afterRead {n : Nat} {e : Entry} {l : List (Exchange (interface.sum M))}
    {t : Task (interface.sum M) (Except Error (Option Volume))}
    (h : Task.Path (afterRead key mutate n (.ok (some e))) l t) :
    Idle l t ∨
      (∃ q u v k, Private q ∧ decode (α := Volume) e.value = .ok u ∧ (mutate u).Yields v ∧
        l = q ++ [⟨.inl (.compareAndSet key (Record.text v) e.index),
          (.ok k : Except Error Nat)⟩] ∧ t = .done (.ok (some v))) ∨
      ∃ p l', l = p ++ l' ∧ Unwritten p ∧ Task.Path (changeRounds key mutate n).run l' t := by
  simp only [afterRead] at h
  cases hu : decode (α := Volume) e.value with
  | error f =>
    rw [hu] at h
    obtain ⟨rfl, rfl⟩ := Task.path_done_iff.mp h
    exact .inl ⟨by simp [Unwritten], by simp⟩
  | ok u =>
    rw [hu] at h
    rcases h.of_bind with ⟨c, next, rfl, hp⟩ | ⟨q, r, v, rfl, hq, hr⟩
    · obtain ⟨q, u', rfl, -, -⟩ := hp.of_inr
      exact .inl ⟨(private_map_inr q).unwritten, by simp⟩
    · obtain ⟨q, u', rfl, hdone, hmutate⟩ := hq.of_inr
      have hprivate := private_map_inr q
      rw [Task.inr_eq_done hdone.symm] at hmutate
      rcases path_afterWrite hr with ⟨hr, ht⟩ | ⟨k, rfl, rfl⟩ | ⟨f, l', rfl, hnext⟩
      · exact .inl ⟨hprivate.unwritten.append hr, ht⟩
      · exact .inr (.inl ⟨_, u, v, k, hprivate, rfl, ⟨q, hmutate⟩, rfl, rfl⟩)
      · refine .inr (.inr ⟨_, l', List.append_cons _ _ _, hprivate.unwritten.append ?_, hnext⟩)
        simp [Unwritten, written?, Call.written?]

/-- A change has written nothing, or it has just replaced the volume and is done. -/
theorem path_changeRounds {n : Nat} {l : List (Exchange (interface.sum M))}
    {t : Task (interface.sum M) (Except Error (Option Volume))}
    (h : Task.Path (changeRounds key mutate n).run l t) :
    Idle l t ∨ ∃ v, Replacement key mutate v l ∧ t = .done (.ok (some v)) := by
  induction n generalizing l with
  | zero =>
    obtain ⟨rfl, rfl⟩ := Task.path_done_iff.mp h
    exact .inl ⟨by simp [Unwritten], by simp⟩
  | succ n ih =>
    rw [changeRounds_succ] at h
    rcases Task.path_ask_iff.mp h with ⟨rfl, rfl⟩ | ⟨a, l', rfl, hread⟩
    · exact .inl ⟨by simp [Unwritten], by simp⟩
    have hget : Unwritten [⟨.inl (.get key), a⟩] := by
      simp [Unwritten, written?, Call.written?]
    match a with
    | .error e =>
      obtain ⟨rfl, rfl⟩ := Task.path_done_iff.mp hread
      exact .inl ⟨hget, by simp⟩
    | .ok none =>
      obtain ⟨rfl, rfl⟩ := Task.path_done_iff.mp hread
      exact .inl ⟨hget, by simp⟩
    | .ok (some e) =>
      rcases path_afterRead hread with ⟨hl, ht⟩ | ⟨q, u, v, k, hq, hu, hv, rfl, rfl⟩ |
        ⟨p, l', rfl, hp, hnext⟩
      · exact .inl ⟨hget.append hl, ht⟩
      · exact .inr ⟨v, ⟨[], q, e, u, k, rfl, by simp [Unwritten], hq, hu, hv⟩, rfl⟩
      · rcases ih hnext with ⟨hl, ht⟩ | ⟨v, hv, rfl⟩
        · exact .inl ⟨(hget.append hp).append hl, ht⟩
        · exact .inr ⟨v, .append (hget.append hp) hv, rfl⟩

/-- The exchanges of a change that came to a result. A write that was refused was a conflict, unless
its error is the result. -/
inductive Belongs (key : String) (r : Except Error (Option Volume)) :
    Exchange (interface.sum M) → Prop
  | own (y : Exchange M) : Belongs key r (Task.Exchange.inr y)
  | read (a : Except Error (Option Entry)) : Belongs key r ⟨.inl (.get key), a⟩
  | written (value : String) (index k : Nat) :
    Belongs key r ⟨.inl (.compareAndSet key value index), (.ok k : Except Error Nat)⟩
  | refused (value : String) (index : Nat) {f : Error} (h : f.isConflict = true ∨ r = .error f) :
    Belongs key r ⟨.inl (.compareAndSet key value index), (.error f : Except Error Nat)⟩

theorem belongs_of_path {n : Nat} {l : List (Exchange (interface.sum M))}
    {r : Except Error (Option Volume)}
    (h : Task.Path (changeRounds key mutate n).run l (.done r)) : ∀ x ∈ l, Belongs key r x := by
  induction n generalizing l with
  | zero =>
    obtain ⟨rfl, -⟩ := Task.path_done_iff.mp h
    simp
  | succ n ih =>
    rw [changeRounds_succ] at h
    obtain ⟨a, l, rfl, hread⟩ := Task.path_ask_done_iff.mp h
    refine List.forall_mem_cons.mpr ⟨.read a, ?_⟩
    rcases a with f | _ | e
    · obtain ⟨rfl, -⟩ := Task.path_done_iff.mp hread
      simp
    · obtain ⟨rfl, -⟩ := Task.path_done_iff.mp hread
      simp
    · simp only [afterRead] at hread
      cases hu : decode (α := Volume) e.value with
      | error f =>
        rw [hu] at hread
        obtain ⟨rfl, -⟩ := Task.path_done_iff.mp hread
        simp
      | ok u =>
        rw [hu] at hread
        obtain ⟨l₁, l₂, v, rfl, hmutate, hwrite⟩ := Task.path_bind_done_iff.mp hread
        obtain ⟨q, -, rfl, -, -⟩ := hmutate.of_inr
        obtain ⟨b, l, rfl, hafter⟩ := Task.path_ask_done_iff.mp hwrite
        refine List.forall_mem_append.mpr ⟨fun x hx => ?_, List.forall_mem_cons.mpr ?_⟩
        · obtain ⟨y, -, rfl⟩ := List.mem_map.mp hx
          exact .own y
        · rcases b with f | k
          · simp only [afterWrite] at hafter
            split at hafter
            next hf =>
              have hconflict : f.isConflict = true := (Bool.and_eq_true_iff.mp hf).1
              exact ⟨.refused _ _ (.inl hconflict), ih hafter⟩
            next =>
              obtain ⟨rfl, hr⟩ := Task.path_done_iff.mp hafter
              exact ⟨.refused _ _ (.inr (Task.done.inj hr)), by simp⟩
          · obtain ⟨rfl, -⟩ := Task.path_done_iff.mp hafter
            exact ⟨.written _ _ k, by simp⟩

end Space

end HostAgent.Store
