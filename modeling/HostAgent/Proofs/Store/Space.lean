import HostAgent.Proofs.Record.Kept
import HostAgent.Store.Space

namespace HostAgent.Store.Space

/-!
# Operations on records as tasks

Each operation on a record makes one call, and what it comes to depends on the answer alone.
-/

variable {α : Type} [Record α]

@[simp] theorem decode_text {β : Type} [Record β] [LawfulRecord β] (b : β) :
    decode (Record.text b) = .ok b := by
  rw [decode, Record.ofString_text]
  rfl

/-- The record in an answer to a reading, with its index. -/
def fetched : Except Error (Option Entry) → Except Error (Option (α × Nat))
  | .error e => .error e
  | .ok none => .ok none
  | .ok (some e) => (decode e.value).map fun a => some (a, e.index)

theorem fetch_run (key : String) :
    (fetch (α := α) key).run = .ask (.get key) fun a => .done (fetched a) := by
  refine congrArg (Task.ask (I := interface) (.get key)) (funext fun a => ?_)
  match a with
  | .error e => rfl
  | .ok none => rfl
  | .ok (some e) =>
    change (ExceptT.run do
      let a ← liftM (decode (α := α) e.value)
      return some (a, e.index)) = Task.done ((decode e.value).map fun a => some (a, e.index))
    cases decode (α := α) e.value with
    | error f => rfl
    | ok a => rfl

def found (a : Except Error (Option Entry)) : Except Error (Option α) :=
  (fetched a).map (Option.map Prod.fst)

theorem found_eq_some_iff {b : Except Error (Option Entry)} {a : α} :
    found b = .ok (some a) ↔ ∃ e, b = .ok (some e) ∧ decode e.value = .ok a := by
  match b with
  | .error f => simp [found, fetched, Except.map]
  | .ok none => simp [found, fetched, Except.map]
  | .ok (some e) =>
    cases hdecode : decode (α := α) e.value <;> simp [found, fetched, Except.map, hdecode]

theorem found_eq_none_iff {b : Except Error (Option Entry)} :
    found (α := α) b = .ok none ↔ b = .ok none := by
  match b with
  | .error f => simp [found, fetched, Except.map]
  | .ok none => simp [found, fetched, Except.map]
  | .ok (some e) =>
    cases hdecode : decode (α := α) e.value <;> simp [found, fetched, Except.map, hdecode]

theorem fetch_map_run (key : String) :
    (do return (← fetch (α := α) key).map Prod.fst : Op (Option α)).run =
      .ask (.get key) fun a => .done (found a) := by
  rw [ExceptT.run_bind, fetch_run]
  refine congrArg (Task.ask (I := interface) (.get key)) (funext fun a => ?_)
  simp only [found]
  cases fetched (α := α) a with
  | error f => rfl
  | ok r => rfl

theorem getHost_run (s : Space) (uuid : String) :
    (s.getHost uuid).run = .ask (.get (s.hostKey uuid)) fun a => .done (found a) :=
  fetch_map_run _

def fetchedAll : Except Error (List (String × Entry)) → Except Error (List α)
  | .error e => .error e
  | .ok entries => entries.mapM fun e => decode e.2.value

theorem fetchAll_run (dir : String) :
    (fetchAll (α := α) dir).run = .ask (.list dir) fun a => .done (fetchedAll a) := by
  refine congrArg (Task.ask (I := interface) (.list dir)) (funext fun a => ?_)
  match a with
  | .error e => rfl
  | .ok entries =>
    change (ExceptT.run (liftM (entries.mapM fun e => decode (α := α) e.2.value) : Op (List α))) =
      Task.done (entries.mapM fun e => decode e.2.value)
    cases entries.mapM fun e => decode (α := α) e.2.value with
    | error f => rfl
    | ok l => rfl

/-- An answer of which only an error matters. -/
def dropIndex : Except Error Nat → Except Error Unit
  | .error e => .error e
  | .ok _ => .ok ()

theorem put_run (key : String) (a : α) :
    (put key a).run = .ask (.set key (Record.text a)) fun b => .done (dropIndex b) := by
  refine congrArg (Task.ask (I := interface) (.set key (Record.text a))) (funext fun b => ?_)
  match b with
  | .error e => rfl
  | .ok n => rfl

theorem createVolume_run (s : Space) (v : Volume) :
    (s.createVolume v).run =
      .ask (.create (s.volumeKey v.name) (Record.text v)) fun b => .done (dropIndex b) := by
  refine congrArg (Task.ask (I := interface) (.create (s.volumeKey v.name) (Record.text v)))
    (funext fun b => ?_)
  match b with
  | .error e => rfl
  | .ok n => rfl

theorem deleteVolume_run (s : Space) (name : String) :
    (s.deleteVolume name).run = .ask (.delete (s.volumeKey name)) .done := rfl

end HostAgent.Store.Space
