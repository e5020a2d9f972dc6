import HostAgent.Proofs.Agent.Records
import HostAgent.Proofs.Container.Orders
import HostAgent.Proofs.Store.Clients

namespace HostAgent

/-!
# An agent beside the store

Agents share the store, and each has the other parts on which it relies for itself. Seen like that,
an operation that creates, deletes or marks a volume is one call of a client of the store, and the
agent only makes its own answer of what the call comes to.
-/

def Time.Timestamp.epoch : Time.Timestamp := ⟨⟨1970, 1, 1, by decide⟩, 0, 0, 0, 0, by decide⟩

instance : Inhabited Time.Timestamp := ⟨.epoch⟩

namespace Agent

open Store

/-- The calls of an agent on the parts that it does not share. -/
inductive OwnCall where
  | container (call : Container.Call)
  | wait (wait : Probe.Wait)
  | now
  | pick (others : Nat)
  | forward (host : Host) (request : Request)

def OwnCall.call : OwnCall → Call
  | .container c => .container c
  | .wait w => .wait w
  | .now => .now
  | .pick k => .pick k
  | .forward h r => .forward h r

abbrev own : Interface := ⟨OwnCall, fun c => c.call.Answer⟩

theorem OwnCall.nonempty_answer (c : OwnCall) : Nonempty c.call.Answer := by
  match c with
  | .container c => exact Executor.nonempty_answer (.inl c)
  | .wait w => exact Executor.nonempty_answer (.inr w)
  | .now => exact ⟨Time.Timestamp.epoch⟩
  | .pick k => exact ⟨(0 : Fin (k + 1))⟩
  | .forward _ _ => exact ⟨(.ok .blank : Result Instance)⟩

instance : ∀ c : own.Call, Nonempty (own.Answer c) := OwnCall.nonempty_answer

def sortCall : (c : interface.Call) → Task (Store.interface.sum own) (interface.Answer c)
  | .store c => .ask (.inl c) .done
  | .container c => .ask (.inr (.container c)) .done
  | .wait w => .ask (.inr (.wait w)) .done
  | .now => .ask (.inr .now) .done
  | .pick k => .ask (.inr (.pick k)) .done
  | .forward h r => .ask (.inr (.forward h r)) .done

variable {α β : Type}

/-- What an agent does, with its calls on the store told from those on its own parts. -/
def beside (t : Task interface α) : Task (Store.interface.sum own) α := t.interpret sortCall

@[simp] theorem beside_done (a : α) : beside (.done a) = .done a := rfl

theorem beside_bind (t : Task interface α) (f : α → Task interface β) :
    beside (t.bind f) = (beside t).bind fun a => beside (f a) :=
  Task.interpret_bind _ t f

theorem beside_lift_bind {t : Task interface α} {f : α → Op β} :
    beside (ExceptT.lift t >>= f).run = (beside t).bind fun a => beside (f a).run := by
  have hrun : (ExceptT.lift t >>= f).run = t.bind fun a => (f a).run := by
    rw [ExceptT.run_bind]
    exact Task.bind_assoc t _ _
  rw [hrun, beside_bind]

theorem beside_stored (op : Store.Op α) : beside (stored op) = op.run.inl := by
  rw [beside, stored, Task.interpret_interpret]
  rfl

theorem beside_ask (op key : String) (t : Store.Op α) :
    beside (ask op key t).run = t.run.inl.bind fun r => .done (r.mapError (.store op key)) := by
  rw [← beside_stored]
  exact beside_bind _ _

def nowCall : (c : clock.Call) → Task own (clock.Answer c) := fun _ => .ask .now .done

theorem beside_change (t : Task (Store.interface.sum clock) α) :
    beside (t.interpret (changeCall fun _ => call .now)) = t.onSecond nowCall := by
  have hcall : (fun c => beside (changeCall (M := clock) (fun _ => call .now) c)) =
      Task.secondCall nowCall := by
    funext c
    rcases c with c | c <;> rfl
  calc
    _ = t.interpret fun c => beside (changeCall (fun _ => call .now) c) :=
      Task.interpret_interpret _ sortCall t
    _ = t.onSecond nowCall := by rw [hcall, Task.onSecond]

/-! ## Operations on a volume -/

/-- The marking of a replica, with the clock among the agent's own parts. -/
def markHere (replica : String) (v : Volume) : Task own Volume :=
  (markNow replica v).interpret nowCall

theorem markHere_of_none {replica : String} {v : Volume} (h : v.replicaKey? replica = none) :
    markHere replica v = .done v := by
  rw [markHere, markNow, h]
  rfl

theorem markHere_of_some {replica k : String} {v : Volume} (h : v.replicaKey? replica = some k) :
    markHere replica v = .ask .now fun now => .done (v.markBad replica now) := by
  rw [markHere, markNow, h]
  rfl

theorem yields_markHere {replica : String} {u v : Volume} (h : (markHere replica u).Yields v) :
    ∃ now, v = u.markBad replica now := by
  obtain ⟨l, hl⟩ := h
  cases hkey : u.replicaKey? replica with
  | none =>
    rw [markHere_of_none hkey] at hl
    cases (Task.path_done_iff.mp hl).2
    refine ⟨default, ?_⟩
    rw [Volume.markBad, hkey]
  | some k =>
    rw [markHere_of_some hkey] at hl
    obtain ⟨now, l, rfl, hdone⟩ := Task.path_ask_done_iff.mp hl
    cases (Task.path_done_iff.mp hdone).2
    exact ⟨now, rfl⟩

/-- The operations that create, delete or mark a volume. -/
inductive Deed where
  | create (v : Volume)
  | delete (name : String)
  | mark (volume : String) (replica : Replica)

namespace Deed

def operation : Deed → Operation
  | .create v => .createVolume v
  | .delete name => .deleteVolume name
  | .mark volume replica => .markBadReplica volume replica

def call (a : Agent) : Deed → ClientCall own
  | .create v => .create a.space v
  | .delete name => .delete a.space name
  | .mark volume replica => .update a.space volume (markHere replica.inst.name)

/-- What an agent makes of what its call comes to. -/
def conclude (a : Agent) : (d : Deed) → Except Store.Error Outcome → Result d.operation.Value
  | .create v, .ok _ => .ok v
  | .create v, .error (.conflict _) => .error (.alreadyExists "volume" v.name)
  | .create v, .error e =>
    .error (.context "fail to create new volume metadata"
      (.store "create" (a.space.volumeKey v.name) e))
  | .delete _, .ok (.deleted true) => .ok ()
  | .delete name, .ok _ => .error (.notFound "volume" name)
  | .delete name, .error e => .error (.store "delete" (a.space.volumeKey name) e)
  | .mark _ _, .ok (.updated (some _)) => .ok ()
  | .mark volume _, .ok _ =>
    .error (.context "fail to mark bad replica" (.notFound "volume" volume))
  | .mark volume _, .error e =>
    .error (.context "fail to mark bad replica" (.store "update" (a.space.volumeKey volume) e))

theorem beside_create (a : Agent) (v : Volume) :
    beside (a.createVolume v).run =
      ((create v).call a).task.bind fun r => .done ((create v).conclude a r) := by
  rw [createVolume, beside_lift_bind, beside_stored, call, ClientCall.task, Task.bind_assoc]
  refine congrArg _ (funext fun r => ?_)
  rcases r with e | _
  · cases e <;> rfl
  · rfl

theorem beside_delete (a : Agent) (name : String) :
    beside (a.deleteVolume name).run =
      ((delete name).call a).task.bind fun r => .done ((delete name).conclude a r) := by
  rw [deleteVolume, ExceptT.run_bind]
  change beside (Task.bind (ask _ _ _).run _) = _
  rw [beside_bind, beside_ask, call, ClientCall.task, Task.bind_assoc, Task.bind_assoc]
  refine congrArg _ (funext fun r => ?_)
  rcases r with e | _ | _ <;> rfl

theorem beside_mark (a : Agent) (volume : String) (replica : Replica) :
    beside (a.markBadReplica volume replica).run =
      ((mark volume replica).call a).task.bind fun r =>
        .done ((mark volume replica).conclude a r) := by
  have hchange : (a.space.changeVolume volume (markNow replica.inst.name)).run.onSecond nowCall =
      (a.space.changeVolume volume (markHere replica.inst.name)).run :=
    Space.changeRounds_onSecond nowCall _ _ _
  rw [markBadReplica, beside_lift_bind, beside_change, hchange, call, ClientCall.task,
    Task.bind_assoc]
  refine congrArg _ (funext fun r => ?_)
  rcases r with e | _ | v <;> rfl

/-- Such an operation is a call of a client, of whose outcome the agent makes its own answer. -/
theorem beside_operation (a : Agent) (d : Deed) :
    beside (d.operation.op a).run = (d.call a).task.bind fun r => .done (d.conclude a r) := by
  cases d with
  | create v => exact beside_create a v
  | delete name => exact beside_delete a name
  | mark volume replica => exact beside_mark a volume replica

/-- An agent reports success if and only if its call says that it has written. -/
theorem conclude_eq_ok_iff {a : Agent} {d : Deed} {r : Except Store.Error Outcome}
    {l : List (Exchange (Store.interface.sum own))} (h : Task.Path (d.call a).task l (.done r)) :
    (∃ x, d.conclude a r = .ok x) ↔ ∃ o, r = .ok o ∧ o.wrote = true := by
  rcases r with e | o
  · have hfails : ∀ x, d.conclude a (.error e) ≠ .ok x := by
      intro x hx
      cases d with
      | create v => cases e <;> cases hx
      | delete name | mark volume replica => cases hx
    simp [hfails]
  · have hfits := ClientCall.fits_of_path h
    cases d with
    | create v =>
      cases o with
      | created => exact ⟨fun _ => ⟨_, rfl, rfl⟩, fun _ => ⟨v, rfl⟩⟩
      | updated u | set | deleted existed => cases hfits
    | delete name =>
      cases o with
      | deleted existed =>
        cases existed with
        | false => simp [conclude, Outcome.wrote]
        | true => exact ⟨fun _ => ⟨_, rfl, rfl⟩, fun _ => ⟨(), rfl⟩⟩
      | updated u | created | set => cases hfits
    | mark volume replica =>
      cases o with
      | updated u =>
        cases u with
        | none => simp [conclude, Outcome.wrote]
        | some u => exact ⟨fun _ => ⟨_, rfl, rfl⟩, fun _ => ⟨(), rfl⟩⟩
      | created | set | deleted existed => cases hfits

end Deed

end Agent

end HostAgent
