import HostAgent.Proofs.Store.KeyRequests
import HostAgent.Proofs.Task.Path

namespace HostAgent.Store.Etcd

/-!
# What a client makes of a response

A call is one request that is sent, and then a function of what came of it. Nothing is asked after
that.
-/

def nodeIn (r : Http.Response) : Except Error Node :=
  (nodeOf.ofInput (Text.Utf8.symbols r.body)).mapError fun _ => .http .decoding

theorem node_run (r : Http.Response) : (node r).run = .done (nodeIn r) := by
  rw [node, nodeIn]
  cases nodeOf.ofInput (Text.Utf8.symbols r.body) <;> rfl

def entryIn (r : Http.Response) : Except Error (Option Entry) :=
  (nodeIn r).map fun n => n.value.map fun v => ⟨v, n.index⟩

def entriesIn (r : Http.Response) : Except Error (List (String × Entry)) := (nodeIn r).map entries

/-- What the client makes of a response that brings what it asked for, or says that it is
missing. -/
def found {α : Type} (missing : α) (present : Http.Response → Except Error α) (r : Http.Response) :
    Except Error α :=
  if r.isSuccess then present r
  else if isMissing r then .ok missing
  else .error (.backend r.status r.text)

def stored (key : String) (r : Http.Response) : Except Error Nat :=
  if r.isSuccess then (nodeIn r).map Node.index else .error (writeError key r)

def orGone (key : String) : Error → Error
  | .backend 404 _ => .conflict key
  | e => e

/-- What the client makes of what came of its request. -/
def conclude : (c : Call) → Except Error Http.Response → c.Answer
  | .get _, b => b.bind (found none entryIn)
  | .list _, b => b.bind (found [] entriesIn)
  | .set key _, b => b.bind (stored key)
  | .create key _, b => b.bind (stored key)
  | .compareAndSet key _ _, b => (b.bind (stored key)).mapError (orGone key)
  | .delete _, b => b.bind (found false fun _ => .ok true)

theorem conclude_get (key : String) (r : Http.Response) :
    conclude (.get key) (.ok r) = found none entryIn r := rfl

theorem conclude_list (dir : String) (r : Http.Response) :
    conclude (.list dir) (.ok r) = found [] entriesIn r := rfl

theorem conclude_delete (key : String) (r : Http.Response) :
    conclude (.delete key) (.ok r) = found false (fun _ => .ok true) r := rfl

theorem conclude_compareAndSet (key value : String) (index : Nat) (r : Http.Response) :
    conclude (.compareAndSet key value index) (.ok r) = (stored key r).mapError (orGone key) := rfl

theorem bind_run {α : Type} (m : Op Http.Response) {f : Http.Response → Op α}
    {g : Http.Response → Except Error α} (h : ∀ r, (f r).run = .done (g r)) :
    (m >>= f).run = m.run.bind fun b => .done (b.bind g) := by
  rw [ExceptT.run_bind]
  refine congrArg (Task.bind m.run) (funext fun b => ?_)
  cases b with
  | error e => rfl
  | ok r => exact h r

theorem node_bind_run {α : Type} (r : Http.Response) (g : Node → α) :
    (node r >>= fun n => pure (g n)).run = .done ((nodeIn r).map g) := by
  rw [ExceptT.run_bind, node_run]
  cases nodeIn r <;> rfl

theorem write_run (cl : Cluster) (key value : String) (pairs : List (String × String)) :
    (write cl key value pairs).run =
      (send cl ⟨.put, key, some pairs, some value⟩).run.bind fun b =>
        .done (b.bind (stored key)) := by
  refine bind_run _ fun r => ?_
  rw [stored]
  split
  · exact node_bind_run r _
  · rfl

theorem answer_eq (cl : Cluster) (c : Call) :
    answer cl c = (send cl (query c)).run.bind fun b => .done (conclude c b) := by
  cases c with
  | get key =>
    refine bind_run _ fun r => ?_
    rw [found]
    split
    · exact node_bind_run r _
    · split <;> rfl
  | list dir =>
    refine bind_run _ fun r => ?_
    rw [found]
    split
    · exact node_bind_run r _
    · split <;> rfl
  | set key value => exact write_run cl key value _
  | create key value => exact write_run cl key value _
  | compareAndSet key value index =>
    change Task.bind (write cl key value _).run _ = _
    rw [write_run, Task.bind_assoc]
    refine congrArg (Task.bind _) (funext fun b => ?_)
    change _ = Task.done ((b.bind (stored key)).mapError (orGone key))
    rw [Task.done_bind]
    cases b.bind (stored key) with
    | ok i => rfl
    | error e =>
      change ExceptT.run (match e with
        | .backend 404 _ => throw (.conflict key)
        | e => throw e : Op Nat) = .done (.error (orGone key e))
      unfold orGone
      split <;> rfl
  | delete key =>
    refine bind_run _ fun r => ?_
    rw [found]
    split
    · rfl
    · split <;> rfl

/-! ## Results of calls -/

section Results

variable {r : Http.Response} {key : String}

theorem found_of_success {α : Type} {a : α} {f : Http.Response → Except Error α}
    (h : r.isSuccess = true) : found a f r = f r :=
  if_pos h

theorem found_of_missing {α : Type} {a : α} {f : Http.Response → Except Error α}
    (h : r.isSuccess = false) (hmissing : isMissing r = true) : found a f r = .ok a := by
  rw [found, if_neg (by simp [h]), if_pos hmissing]

theorem stored_of_success (h : r.isSuccess = true) : stored key r = (nodeIn r).map Node.index :=
  if_pos h

theorem stored_of_failure (h : r.isSuccess = false) : stored key r = .error (writeError key r) :=
  if_neg (by simp [h])

/-- A response that there is no such key, or that the condition of a write does not hold. -/
def Denies (r : Http.Response) : Prop :=
  r.isSuccess = false ∧ (r.status = 404 ∨ r.status = 412 ∨
    ∃ f, Fault.ofText r.text = some f ∧ (f.code = testFailed ∨ f.code = nodeExists))

theorem nodeIn_error {e : Error} (h : nodeIn r = .error e) : e = .http .decoding := by
  rw [nodeIn] at h
  cases hn : nodeOf.ofInput (Text.Utf8.symbols r.body) <;> rw [hn] at h <;> cases h
  rfl

theorem stored_cases (key : String) (r : Http.Response) :
    (∃ i, stored key r = .ok i ∧ r.isSuccess = true) ∨
      stored key r = .error (.http .decoding) ∨
      stored key r = .error (writeError key r) ∧ r.isSuccess = false := by
  cases hr : r.isSuccess with
  | false => exact .inr (.inr ⟨stored_of_failure hr, rfl⟩)
  | true =>
    rw [stored_of_success hr]
    cases hn : nodeIn r with
    | ok n => exact .inl ⟨n.index, rfl, rfl⟩
    | error e =>
      rw [nodeIn_error hn]
      exact .inr (.inl rfl)

theorem writeError_cases (key : String) (r : Http.Response) :
    writeError key r = .conflict key ∧ (r.status = 412 ∨
        ∃ f, Fault.ofText r.text = some f ∧ (f.code = testFailed ∨ f.code = nodeExists)) ∨
      ∃ m, writeError key r = .backend r.status m := by
  unfold writeError
  cases hf : Fault.ofText r.text with
  | none =>
    by_cases hstatus : r.status = 412
    · exact .inl ⟨if_pos hstatus, .inl hstatus⟩
    · exact .inr ⟨r.text, if_neg hstatus⟩
  | some f =>
    by_cases hcode : f.code = testFailed ∨ f.code = nodeExists
    · exact .inl ⟨if_pos hcode, .inr ⟨f, rfl, hcode⟩⟩
    · exact .inr ⟨f.message, if_neg hcode⟩

theorem isConflict_orGone {e : Error} (h : (orGone key e).isConflict = true) :
    e.isConflict = true ∨ ∃ m, e = .backend 404 m := by
  unfold orGone at h
  split at h
  next m => exact .inr ⟨m, rfl⟩
  next => exact .inl h

/-- A write that comes to a conflict was denied. -/
theorem denies_of_stored {e : Error} (h : stored key r = .error e)
    (hconflict : e.isConflict = true ∨ ∃ m, e = .backend 404 m) : Denies r := by
  rcases stored_cases key r with ⟨i, hi, -⟩ | hdecoding | ⟨herror, hr⟩
  · rw [h] at hi
    cases hi
  · rw [h] at hdecoding
    cases hdecoding
    rcases hconflict with hconflict | ⟨m, hm⟩
    · cases hconflict
    · cases hm
  · rw [h] at herror
    cases herror
    refine ⟨hr, ?_⟩
    rcases writeError_cases key r with ⟨-, hstatus | hfault⟩ | ⟨m, hm⟩
    · exact .inr (.inl hstatus)
    · exact .inr (.inr hfault)
    · rw [hm] at hconflict
      rcases hconflict with hconflict | ⟨m', hm'⟩
      · cases hconflict
      · exact .inl (Error.backend.inj hm').1

theorem exists_of_conclude_get {b : Except Error Http.Response} {e : Entry}
    (h : conclude (.get key) b = .ok (some e)) : ∃ r, b = .ok r ∧ entryIn r = .ok (some e) := by
  rcases b with f | r
  · cases h
  · rw [conclude_get, found] at h
    split at h
    · exact ⟨r, rfl, h⟩
    · split at h <;> cases h

theorem stored_of_conclude_compareAndSet {b : Except Error Http.Response} {value : String}
    {index i : Nat} (h : conclude (.compareAndSet key value index) b = .ok i) :
    b.bind (stored key) = .ok i := by
  change (b.bind (stored key)).mapError (orGone key) = .ok i at h
  cases hb : b.bind (stored key) with
  | ok j =>
    rw [hb] at h
    exact h
  | error e =>
    rw [hb] at h
    cases h

/-! Only where no response came is a call unavailable. -/

section Unavailable

variable {m : String}

theorem found_ne_unavailable {α : Type} {a : α} {f : Http.Response → Except Error α}
    (hf : f r ≠ .error (.unavailable m)) : found a f r ≠ .error (.unavailable m) := by
  unfold found
  split
  · exact hf
  · split <;> nofun

theorem map_nodeIn_ne_unavailable {α : Type} (f : Node → α) :
    (nodeIn r).map f ≠ .error (.unavailable m) := by
  cases hn : nodeIn r with
  | ok n => nofun
  | error e =>
    rw [nodeIn_error hn]
    nofun

theorem stored_ne_unavailable : stored key r ≠ .error (.unavailable m) := by
  rcases stored_cases key r with ⟨i, hi, -⟩ | hdecoding | ⟨herror, -⟩
  · rw [hi]
    nofun
  · rw [hdecoding]
    nofun
  · rw [herror]
    rcases writeError_cases key r with ⟨hconflict, -⟩ | ⟨m', hm'⟩
    · rw [hconflict]
      nofun
    · rw [hm']
      nofun

theorem conclude_ne_unavailable (c : Call) : conclude c (.ok r) ≠ c.failed (.unavailable m) := by
  cases c with
  | get key => exact found_ne_unavailable (map_nodeIn_ne_unavailable _)
  | list dir => exact found_ne_unavailable (map_nodeIn_ne_unavailable _)
  | set key value | create key value => exact stored_ne_unavailable
  | compareAndSet key value index =>
    rw [conclude_compareAndSet]
    intro h
    cases hs : stored key r with
    | ok i =>
      rw [hs] at h
      cases h
    | error e =>
      rw [hs] at h
      have he : orGone key e = .unavailable m := Except.error.inj h
      unfold orGone at he
      split at he
      next => cases he
      next =>
        subst he
        exact stored_ne_unavailable hs
  | delete key => exact found_ne_unavailable (f := fun _ => .ok true) (by nofun)

end Unavailable

theorem conclude_http (c : Call) (f : Http.Failure) :
    conclude c (.error (.http f)) = c.failed (.http f) := by
  cases c <;> rfl

theorem conclude_unavailable (c : Call) (m : String) :
    conclude c (.error (.unavailable m)) = c.failed (.unavailable m) := by
  cases c <;> rfl

end Results

section Runs

variable {σ : Type} {world : Http.Request → σ → Http.Outcome × σ} {s s' : σ} {cl : Cluster}
variable {c : Call} {b : Except Error Http.Response}

theorem answer_run (hsend : (send cl (query c)).run.run world s = (b, s')) :
    (answer cl c).run world s = (conclude c b, s') := by
  rw [answer_eq, Task.run_map, hsend]

theorem path_answer_iff {l : List (Exchange Http.interface)} {a : c.Answer} :
    Task.Path (answer cl c) l (.done a) ↔
      ∃ b, Task.Path (send cl (query c)).run l (.done b) ∧ a = conclude c b := by
  rw [answer_eq, Task.path_bind_done_iff]
  constructor
  · rintro ⟨l₁, l₂, b, rfl, h₁, h₂⟩
    obtain ⟨rfl, ha⟩ := Task.path_done_iff.mp h₂
    rw [List.append_nil]
    exact ⟨b, h₁, (Task.done.inj ha)⟩
  · rintro ⟨b, h, rfl⟩
    exact ⟨l, [], b, by simp, h, .nil _⟩

end Runs

end HostAgent.Store.Etcd
