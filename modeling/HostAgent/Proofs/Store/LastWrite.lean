import HostAgent.Proofs.Store.Catalog

namespace HostAgent.Store

/-!
# Writing once and last

A task that calls nothing but readings never writes. An operation on a record writes once at most,
to the key of the record, and it is done as soon as it has written. This is kept by what readings
are put before it, and by what is made of its result.
-/

variable {M : Interface} {ε ε' α β : Type}

/-- Whatever it is answered, a task writes nothing. -/
def NeverWrites (t : Task (interface.sum M) α) : Prop := ∀ l u, Task.Path t l u → Unwritten l

/-- Whatever it is answered, a task writes one key at most, the one that its result owns, and it has
succeeded as soon as it has written. -/
def WritesLast (owned? : α → Option String) (t : Task (interface.sum M) (Except ε α)) : Prop :=
  ∀ l u, Task.Path t l u → Unwritten l ∨
    ∃ p x a key, l = p ++ [x] ∧ Unwritten p ∧ written? x = some key ∧ owned? a = some key ∧
      u = .done (.ok a)

/-- A call that is not meant to write. -/
def Call.Reads (c : Call) : Prop := c.method.writes = false

/-- A call that is not meant to write, or is one on the other part. -/
def Still : (interface.sum M).Call → Prop
  | .inl c => c.Reads
  | .inr _ => True

theorem Still.written?_eq_none {x : Exchange (interface.sum M)} (h : Still x.1) :
    written? x = none := by
  obtain ⟨c | c, a⟩ := x
  · cases c with
    | get key => rfl
    | list dir => rfl
    | set key value | create key value | compareAndSet key value index | delete key => cases h
  · rfl

theorem neverWrites_of_asks {t : Task (interface.sum M) α} (h : t.Asks Still) : NeverWrites t :=
  fun _ _ hl x hx => (h.path hl x hx).written?_eq_none

theorem neverWrites_inr (t : Task M α) : NeverWrites (t.inr : Task (interface.sum M) α) := by
  intro l u hl
  obtain ⟨q, u', rfl, -, -⟩ := hl.of_inr
  exact (private_map_inr q).unwritten

theorem NeverWrites.map {t : Task (interface.sum M) α} (h : NeverWrites t) (f : α → β) :
    NeverWrites (t.bind fun a => .done (f a)) := by
  intro l u hl
  obtain ⟨u', -, hpath⟩ := hl.of_map
  exact h l u' hpath

section Putting

variable {owned? : α → Option String} {owned'? : β → Option String}

theorem NeverWrites.writesLast {t : Task (interface.sum M) (Except ε α)} (h : NeverWrites t) :
    WritesLast owned? t :=
  fun l u hl => .inl (h l u hl)

/-- What never writes can come first. -/
theorem NeverWrites.bind_writesLast {t : Task (interface.sum M) α}
    {f : α → Task (interface.sum M) (Except ε β)} (ht : NeverWrites t)
    (hf : ∀ a, WritesLast owned'? (f a)) : WritesLast owned'? (t.bind f) := by
  intro l u hl
  rcases hl.of_bind with ⟨c, next, -, hl⟩ | ⟨l₁, l₂, a, rfl, h₁, h₂⟩
  · exact .inl (ht l _ hl)
  · rcases hf a l₂ u h₂ with hl₂ | ⟨p, x, b, key, rfl, hp, hx, hkey, hu⟩
    · exact .inl ((ht l₁ _ h₁).append hl₂)
    · exact .inr ⟨l₁ ++ p, x, b, key, by simp, (ht l₁ _ h₁).append hp, hx, hkey, hu⟩

/-- Of a result that owns a key, a result has to be made that owns it as well. -/
theorem WritesLast.map {t : Task (interface.sum M) (Except ε α)} {f : Except ε α → Except ε' β}
    (h : WritesLast owned? t)
    (hf : ∀ a key, owned? a = some key → ∃ b, f (.ok a) = .ok b ∧ owned'? b = some key) :
    WritesLast owned'? (t.bind fun r => .done (f r)) := by
  intro l u hl
  obtain ⟨u', rfl, hpath⟩ := hl.of_map
  rcases h l u' hpath with hl | ⟨p, x, a, key, rfl, hp, hx, hkey, rfl⟩
  · exact .inl hl
  · obtain ⟨b, hb, hkey'⟩ := hf a key hkey
    exact .inr ⟨p, x, b, key, rfl, hp, hx, hkey', congrArg Task.done hb⟩

theorem writesLast_one {c : Call} {g : c.Answer → Except ε α}
    (hg : ∀ a key, c.written? a = some key → ∃ b, g a = .ok b ∧ owned? b = some key) :
    WritesLast owned?
      (.ask (.inl c) fun a => .done (g a) : Task (interface.sum M) (Except ε α)) := by
  intro l u hl
  rcases Task.path_one_iff.mp hl with ⟨rfl, rfl⟩ | ⟨a, rfl, rfl⟩
  · exact .inl (by simp [Unwritten])
  · cases hw : c.written? a with
    | none => exact .inl (by simpa [Unwritten, written?] using hw)
    | some key =>
      obtain ⟨b, hb, hkey⟩ := hg a key hw
      exact .inr ⟨[], _, b, key, rfl, by simp [Unwritten], hw, hkey, congrArg Task.done hb⟩

end Putting

/-! ## Operations on records -/

namespace Space

theorem writesLast_changeRounds (key : String) (mutate : Volume → Task M Volume) (n : Nat) :
    WritesLast (fun v : Option Volume => v.map fun _ => key) (changeRounds key mutate n).run := by
  intro l u hl
  rcases path_changeRounds hl with ⟨hl, -⟩ | ⟨v, hv, rfl⟩
  · exact .inl hl
  · obtain ⟨p, x, rfl, hp, hx⟩ := hv.last
    exact .inr ⟨p, x, some v, key, rfl, hp, hx, rfl, rfl⟩

theorem writesLast_put {α : Type} [Record α] (key : String) (a : α) :
    WritesLast (M := M) (fun _ => some key) (Change.ofOp (put key a)).run := by
  rw [Change.ofOp, put_run]
  refine writesLast_one fun b key' hw => ?_
  rcases b with e | n
  · cases hw
  · exact ⟨(), rfl, hw⟩

theorem writesLast_createVolume (s : Space) (v : Volume) :
    WritesLast (M := M) (fun _ => some (s.volumeKey v.name))
      (Change.ofOp (s.createVolume v)).run := by
  rw [Change.ofOp, createVolume_run]
  refine writesLast_one fun b key' hw => ?_
  rcases b with e | n
  · cases hw
  · exact ⟨(), rfl, hw⟩

/-- Only a volume that was there has been deleted. -/
theorem writesLast_deleteVolume (s : Space) (name : String) :
    WritesLast (M := M) (fun existed : Bool => if existed then some (s.volumeKey name) else none)
      (Change.ofOp (s.deleteVolume name)).run := by
  rw [Change.ofOp, deleteVolume_run]
  refine writesLast_one fun b key' hw => ?_
  rcases b with e | _ | _
  · cases hw
  · cases hw
  · exact ⟨true, rfl, hw⟩

theorem asks_fetch {α : Type} [Record α] (key : String) :
    (fetch (α := α) key).run.Asks Call.Reads := by
  rw [fetch_run]
  exact ⟨rfl, fun _ => trivial⟩

theorem asks_fetchAll {α : Type} [Record α] (dir : String) :
    (fetchAll (α := α) dir).run.Asks Call.Reads := by
  rw [fetchAll_run]
  exact ⟨rfl, fun _ => trivial⟩

theorem asks_fetch_map {α β : Type} [Record α] (key : String) (f : Option (α × Nat) → β) :
    (do return f (← fetch (α := α) key) : Op β).run.Asks Call.Reads :=
  (asks_fetch key).bind_run fun _ => Task.asks_pure _

end Space

theorem asks_ofOp {op : Op α} (h : op.run.Asks Call.Reads) :
    (Space.Change.ofOp (M := M) op).run.Asks Still :=
  h.interpret fun _ hc => Task.asks_call hc

namespace Space.Operation

/-- The key that an operation has written or deleted, going by its result. -/
def owned? (s : Space) : (o : Operation M) → o.Value → Option String
  | .setHost h, _ => some (s.hostKey h.uuid)
  | .createVolume v, _ | .setVolume v, _ => some (s.volumeKey v.name)
  | .deleteVolume name, (existed : Bool) => if existed then some (s.volumeKey name) else none
  | .changeVolume name _, (v : Option Volume) => v.map fun _ => s.volumeKey name
  | .setSettings _, _ => some s.settingsKey
  | .getHost _, _ | .listHosts, _ | .getVolume _, _ | .listVolumes, _ | .getSettings, _ => none

theorem asks_still {s : Space} {o : Operation M} (h : o.isReading = true) :
    (o.change s).run.Asks Still := by
  cases o with
  | getHost uuid => exact asks_ofOp (asks_fetch_map _ _)
  | listHosts => exact asks_ofOp (asks_fetchAll _)
  | getVolume name => exact asks_ofOp (asks_fetch_map _ _)
  | listVolumes => exact asks_ofOp (asks_fetchAll _)
  | getSettings => exact asks_ofOp (asks_fetch_map _ _)
  | setHost h' | createVolume v | setVolume v | deleteVolume v | changeVolume name mutate
  | setSettings settings => cases h

theorem writesLast (s : Space) (o : Operation M) : WritesLast (o.owned? s) (o.change s).run := by
  by_cases hreading : o.isReading = true
  · exact (neverWrites_of_asks (asks_still (s := s) hreading)).writesLast
  cases o with
  | setHost h => exact writesLast_put _ h
  | createVolume v => exact writesLast_createVolume s v
  | setVolume v => exact writesLast_put _ v
  | deleteVolume name => exact writesLast_deleteVolume s name
  | changeVolume name mutate => exact writesLast_changeRounds _ mutate _
  | setSettings settings => exact writesLast_put _ settings
  | getHost uuid | listHosts | getVolume name | listVolumes | getSettings =>
    exact absurd rfl hreading

end Space.Operation

end HostAgent.Store
