import HostAgent.Proofs.Store.Change

namespace HostAgent.Store

/-!
# Clients of a store

A client changes, creates, replaces or deletes a volume. Such a call writes once at most, as the
last thing that it does, and what it is answered says whether it has written.
-/

variable {M : Interface}

inductive ClientCall (M : Interface) where
  | update (space : Space) (name : String) (mutate : Volume → Task M Volume)
  | create (space : Space) (v : Volume)
  | set (space : Space) (v : Volume)
  | delete (space : Space) (name : String)

inductive Outcome where
  | updated (v : Option Volume)
  | created
  | set
  | deleted (existed : Bool)
  deriving DecidableEq

/-- Whether an answer says that the volume was written or deleted. -/
def Outcome.wrote : Outcome → Bool
  | .updated v => v.isSome
  | .created | .set => true
  | .deleted existed => existed

namespace ClientCall

def key : ClientCall M → String
  | .update space name _ | .delete space name => space.volumeKey name
  | .create space v | .set space v => space.volumeKey v.name

def task : ClientCall M → Task (interface.sum M) (Except Error Outcome)
  | .update space name mutate =>
    (space.changeVolume name mutate).run.bind fun r => .done (r.map .updated)
  | .create space v => (space.createVolume v).run.inl.bind fun r => .done (r.map fun _ => .created)
  | .set space v => (space.setVolume v).run.inl.bind fun r => .done (r.map fun _ => .set)
  | .delete space name => (space.deleteVolume name).run.inl.bind fun r => .done (r.map .deleted)

theorem task_update (space : Space) (name : String) (mutate : Volume → Task M Volume) :
    (update space name mutate).task = .ask (.inl (.get (space.volumeKey name))) fun a =>
      (Space.afterRead (space.volumeKey name) mutate 4 a).bind fun r => .done (r.map .updated) := by
  rw [task, Space.changeVolume]
  change Task.bind (Space.changeRounds (space.volumeKey name) mutate (4 + 1)).run _ = _
  rw [Space.changeRounds_succ]
  rfl

theorem task_create (space : Space) (v : Volume) :
    (create space v : ClientCall M).task =
      .ask (.inl (.create (space.volumeKey v.name) (Record.text v)))
        fun a => .done ((Space.dropIndex a).map fun _ => .created) := by
  rw [task, Space.createVolume_run]
  rfl

theorem task_set (space : Space) (v : Volume) :
    (set space v : ClientCall M).task =
      .ask (.inl (.set (space.volumeKey v.name) (Record.text v)))
        fun a => .done ((Space.dropIndex a).map fun _ => .set) := by
  rw [task, Space.setVolume, Space.put_run]
  rfl

theorem task_delete (space : Space) (name : String) :
    (delete space name : ClientCall M).task = .ask (.inl (.delete (space.volumeKey name)))
      fun a => .done (Except.map .deleted a) := by
  rw [task, Space.deleteVolume_run]
  rfl

/-- What a call that is carried out makes of the record that is stored under its key. -/
def Effect : ClientCall M → Option (Except Error Volume) → Option (Except Error Volume) → Prop
  | .update _ _ mutate, old, new =>
    ∃ u v, old = some (.ok u) ∧ (mutate u).Yields v ∧ new = some (.ok v)
  | .create _ v, old, new => old = none ∧ new = some (.ok v)
  | .set _ v, _, new => new = some (.ok v)
  | .delete _ _, _, new => new = none

/-- A call has written nothing and says so, or it has just written its key and is done. -/
def Settled (c : ClientCall M) (l : List (Exchange (interface.sum M)))
    (t : Task (interface.sum M) (Except Error Outcome)) : Prop :=
  (Unwritten l ∧ ∀ o, t = .done (.ok o) → o.wrote = false) ∨
    ∃ p x o, l = p ++ [x] ∧ Unwritten p ∧ written? x = some c.key ∧ t = .done (.ok o) ∧
      o.wrote = true

theorem path_update {space : Space} {name : String} {mutate : Volume → Task M Volume}
    {l : List (Exchange (interface.sum M))} {t : Task (interface.sum M) (Except Error Outcome)}
    (h : Task.Path (update space name mutate).task l t) :
    (Unwritten l ∧ ∀ o, t = .done (.ok o) → o.wrote = false) ∨
      ∃ v, Space.Replacement (space.volumeKey name) mutate v l ∧
        t = .done (.ok (.updated (some v))) := by
  obtain ⟨u, rfl, hu⟩ := h.of_map
  rcases Space.path_changeRounds hu with ⟨hl, hnone⟩ | ⟨v, hv, rfl⟩
  · refine .inl ⟨hl, ?_⟩
    intro o ho
    obtain ⟨r, rfl, hr⟩ := Task.bind_done_eq_done ho
    match r with
    | .error e => cases hr
    | .ok none =>
      cases hr
      rfl
    | .ok (some v) => exact absurd rfl (hnone v)
  · exact .inr ⟨v, hv, rfl⟩

theorem settled_of_one {c : ClientCall M} {call : Call} {g : call.Answer → Except Error Outcome}
    {l : List (Exchange (interface.sum M))} {t : Task (interface.sum M) (Except Error Outcome)}
    (hg : ∀ a, (call.written? a = none ∧ ∀ o, g a = .ok o → o.wrote = false) ∨
      (call.written? a = some c.key ∧ ∃ o, g a = .ok o ∧ o.wrote = true))
    (h : Task.Path (.ask (I := interface.sum M) (.inl call) fun a => .done (g a)) l t) :
    c.Settled l t := by
  rcases Task.path_one_iff.mp h with ⟨rfl, rfl⟩ | ⟨a, rfl, rfl⟩
  · exact .inl ⟨by simp [Unwritten], by simp⟩
  · rcases hg a with ⟨hnone, hwrote⟩ | ⟨hkey, o, ho, hwrote⟩
    · refine .inl ⟨?_, ?_⟩
      · simpa [Unwritten, written?] using hnone
      · intro o ho
        exact hwrote o (Task.done.inj ho)
    · exact .inr ⟨[], _, o, rfl, by simp [Unwritten], hkey, by rw [ho], hwrote⟩

theorem path_task {c : ClientCall M} {l : List (Exchange (interface.sum M))}
    {t : Task (interface.sum M) (Except Error Outcome)} (h : Task.Path c.task l t) :
    c.Settled l t := by
  cases c with
  | update space name mutate =>
    rcases path_update h with hl | ⟨v, hv, rfl⟩
    · exact .inl hl
    · obtain ⟨p, x, rfl, hp, hx⟩ := hv.last
      exact .inr ⟨p, x, _, rfl, hp, hx, rfl, rfl⟩
  | create space v =>
    rw [task_create] at h
    refine settled_of_one ?_ h
    intro a
    match a with
    | .error e => exact .inl ⟨rfl, by simp [Space.dropIndex, Except.map]⟩
    | .ok k => exact .inr ⟨rfl, _, rfl, rfl⟩
  | set space v =>
    rw [task_set] at h
    refine settled_of_one ?_ h
    intro a
    match a with
    | .error e => exact .inl ⟨rfl, by simp [Space.dropIndex, Except.map]⟩
    | .ok k => exact .inr ⟨rfl, _, rfl, rfl⟩
  | delete space name =>
    rw [task_delete] at h
    refine settled_of_one ?_ h
    intro a
    match a with
    | .error e => exact .inl ⟨rfl, by simp [Except.map]⟩
    | .ok false => exact .inl ⟨rfl, by simp [Except.map, Outcome.wrote]⟩
    | .ok true => exact .inr ⟨rfl, _, rfl, rfl⟩

/-- An outcome is of the kind to which a call can come. -/
def Fits : ClientCall M → Outcome → Prop
  | .update _ _ _, .updated _ | .create _ _, .created | .set _ _, .set | .delete _ _, .deleted _ =>
    True
  | _, _ => False

theorem fits_of_path {c : ClientCall M} {l : List (Exchange (interface.sum M))} {o : Outcome}
    (h : Task.Path c.task l (.done (.ok o))) : c.Fits o := by
  cases c with
  | update space name mutate | create space v | set space v | delete space name =>
    obtain ⟨u, hu, -⟩ := h.of_map
    obtain ⟨r, -, hr⟩ := Task.bind_done_eq_done hu.symm
    rcases r with e | a
    · cases hr
    · cases hr
      trivial

end ClientCall

end HostAgent.Store
