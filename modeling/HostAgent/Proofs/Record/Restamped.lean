import HostAgent.Proofs.SortedMap
import HostAgent.Record.Volume

namespace HostAgent

/-!
# Volumes with other stamps

Marking a replica stamps it and touches nothing else of the volume. Which replica a name belongs to
does not depend on the stamps, so however often a volume is marked, each mark finds the replica that
it would have found at first.
-/

namespace Volume

variable {u v w : Volume} {name k : String}

/-- What is known of the replicas of a volume but for their stamps. -/
def instances (v : Volume) : SortedMap Instance := v.replicas.mapValues Replica.inst

/-- One volume is another one with other stamps on its replicas. -/
structure Restamps (v u : Volume) : Prop where
  name : u.name = v.name
  size : u.size = v.size
  image : u.image = v.image
  instances : u.instances = v.instances

theorem Restamps.refl (v : Volume) : Restamps v v := ⟨rfl, rfl, rfl, rfl⟩

theorem Restamps.trans (h : Restamps v u) (h' : Restamps u w) : Restamps v w :=
  ⟨h'.name.trans h.name, h'.size.trans h.size, h'.image.trans h.image,
    h'.instances.trans h.instances⟩

theorem replicaKey?_eq (v : Volume) (name : String) :
    v.replicaKey? name = (v.instances.entries.find? fun e => e.2.name == name).map Prod.fst := by
  rw [instances, SortedMap.mapValues, List.find?_map, Option.map_map]
  rfl

theorem Restamps.replicaKey?_eq (h : Restamps v u) (name : String) :
    u.replicaKey? name = v.replicaKey? name := by
  rw [Volume.replicaKey?_eq, Volume.replicaKey?_eq, h.instances]

theorem exists_of_replicaKey? (h : v.replicaKey? name = some k) :
    ∃ r, v.replicas.get? k = some r ∧ r.inst.name = name := by
  obtain ⟨⟨k', r⟩, hfind, rfl⟩ := Option.map_eq_some_iff.mp h
  refine ⟨r, SortedMap.get?_eq_some_iff.mpr (List.mem_of_find?_eq_some hfind), ?_⟩
  simpa using List.find?_some hfind

/-- A replica of the given name stands under a key. -/
def Bears (v : Volume) (name k : String) : Prop :=
  ∃ r, v.replicas.get? k = some r ∧ r.inst.name = name

theorem replicaKey?_eq_none_iff : v.replicaKey? name = none ↔ ∀ k, ¬ v.Bears name k := by
  rw [replicaKey?, Option.map_eq_none_iff, List.find?_eq_none]
  constructor
  · rintro h k ⟨r, hr, hname⟩
    exact h (k, r) (SortedMap.get?_eq_some_iff.mp hr) (by simpa using hname)
  · rintro h ⟨k, r⟩ hmem hname
    exact h k ⟨r, SortedMap.get?_eq_some_iff.mpr hmem, by simpa using hname⟩

/-- The replica that is found for a name has the least key of all that have this name. -/
theorem replicaKey?_eq_some_iff :
    v.replicaKey? name = some k ↔ v.Bears name k ∧ ∀ j, v.Bears name j → k ≤ j := by
  have hleast : ∀ {k}, v.replicaKey? name = some k → ∀ j, v.Bears name j → k ≤ j := by
    rintro k h j ⟨r, hr, hname⟩
    obtain ⟨⟨k', r'⟩, hfind, rfl⟩ := Option.map_eq_some_iff.mp h
    obtain ⟨-, front, back, hentries, hfront⟩ := List.find?_eq_some_iff_append.mp hfind
    have hj := SortedMap.get?_eq_some_iff.mp hr
    have hsorted := v.replicas.sorted
    rw [hentries] at hj hsorted
    rcases List.mem_append.mp hj with hj | hj
    · exact absurd (hfront _ hj) (by simpa using hname)
    rcases List.mem_cons.mp hj with hj | hj
    · cases hj
      exact String.le_refl _
    · have hlt := List.rel_of_pairwise_cons (List.pairwise_append.mp hsorted).2.1 hj
      exact String.not_lt.mp (String.lt_asymm hlt)
  constructor
  · intro h
    obtain ⟨r, hr, hname⟩ := exists_of_replicaKey? h
    exact ⟨⟨r, hr, hname⟩, hleast h⟩
  · rintro ⟨hk, hmin⟩
    cases hfound : v.replicaKey? name with
    | none => exact absurd hk (replicaKey?_eq_none_iff.mp hfound k)
    | some j =>
      obtain ⟨r, hr, hname⟩ := exists_of_replicaKey? hfound
      rw [String.le_antisymm (hleast hfound k hk) (hmin j ⟨r, hr, hname⟩)]

theorem get?_markBad (v : Volume) (name : String) (now : Time.Timestamp) (k : String) :
    (v.markBad name now).replicas.get? k =
      if v.replicaKey? name = some k then
        (v.replicas.get? k).map fun r => { r with badSince := some now }
      else v.replicas.get? k := by
  cases hkey : v.replicaKey? name with
  | none =>
    rw [markBad, hkey, if_neg nofun]
  | some j =>
    obtain ⟨r, hr, -⟩ := exists_of_replicaKey? hkey
    simp only [markBad, hkey, hr, SortedMap.get?_insert]
    by_cases hj : k = j
    · subst hj
      rw [if_pos rfl, if_pos rfl, hr, Option.map_some]
    · rw [if_neg hj, if_neg fun heq => hj (Option.some.inj heq).symm]

theorem restamps_markBad (v : Volume) (name : String) (now : Time.Timestamp) :
    Restamps v (v.markBad name now) := by
  have hfields : (v.markBad name now).name = v.name ∧ (v.markBad name now).size = v.size ∧
      (v.markBad name now).image = v.image := by
    rw [markBad]
    repeat' split
    all_goals exact ⟨rfl, rfl, rfl⟩
  refine ⟨hfields.1, hfields.2.1, hfields.2.2, SortedMap.ext fun k => ?_⟩
  rw [instances, instances, SortedMap.get?_mapValues, SortedMap.get?_mapValues, get?_markBad]
  split
  · rw [Option.map_map]
    rfl
  · rfl

/-! ## Marks along the entries -/

/-- Entries with a stamp on the first replica of a name. -/
def stampFirst (name : String) (now : Time.Timestamp) :
    List (String × Replica) → List (String × Replica)
  | [] => []
  | (k, r) :: rest =>
    if r.inst.name = name then (k, { r with badSince := some now }) :: rest
    else (k, r) :: stampFirst name now rest

variable {l : List (String × Replica)} {now : Time.Timestamp}

theorem map_fst_stampFirst : (stampFirst name now l).map Prod.fst = l.map Prod.fst := by
  induction l with
  | nil => rfl
  | cons e rest ih =>
    rw [stampFirst]
    split
    · rfl
    · rw [List.map_cons, List.map_cons, ih]

theorem ascending_stampFirst (h : Ascending l) : Ascending (stampFirst name now l) := by
  rw [Ascending, ← List.pairwise_map] at h ⊢
  rwa [map_fst_stampFirst]

/-- A volume with a stamp on the first replica of a name, in the order of the keys. -/
def struck (v : Volume) (name : String) (now : Time.Timestamp) : Volume :=
  { v with replicas := ⟨stampFirst name now v.replicas.entries,
      ascending_stampFirst v.replicas.sorted⟩ }

theorem stampFirst_of_forall_ne (h : ∀ e ∈ l, e.2.inst.name ≠ name) :
    stampFirst name now l = l := by
  induction l with
  | nil => rfl
  | cons e rest ih =>
    obtain ⟨hfirst, hrest⟩ := List.forall_mem_cons.mp h
    rw [stampFirst, if_neg hfirst, ih hrest]

/-- To write the stamped replica under its key is to stamp it where it stands. -/
theorem insert_eq_stampFirst {r : Replica} (h : Ascending l)
    (hfind : (l.find? fun e => e.2.inst.name == name) = some (k, r)) :
    Entries.insert k { r with badSince := some now } l = stampFirst name now l := by
  induction l with
  | nil => cases hfind
  | cons e rest ih =>
    obtain ⟨k', r'⟩ := e
    obtain ⟨hleast, hrest⟩ := List.pairwise_cons.mp h
    by_cases hname : r'.inst.name = name
    · rw [List.find?_cons_of_pos (by simpa using hname)] at hfind
      cases hfind
      rw [stampFirst, if_pos hname, Entries.insert, if_neg (String.lt_irrefl k), if_pos rfl]
    · rw [List.find?_cons_of_neg (by simpa using hname)] at hfind
      have hlt : k' < k := hleast _ (List.mem_of_find?_eq_some hfind)
      have hne : k ≠ k' := by
        rintro rfl
        exact String.lt_irrefl k hlt
      rw [stampFirst, if_neg hname, Entries.insert, if_neg (String.lt_asymm hlt), if_neg hne,
        ih hrest hfind]

theorem markBad_eq_struck (v : Volume) (name : String) (now : Time.Timestamp) :
    v.markBad name now = v.struck name now := by
  cases hfind : v.replicas.entries.find? fun e => e.2.inst.name == name with
  | none =>
    have hnone : v.replicaKey? name = none := by rw [replicaKey?, hfind, Option.map_none]
    have hsame : stampFirst name now v.replicas.entries = v.replicas.entries :=
      stampFirst_of_forall_ne (by simpa using List.find?_eq_none.mp hfind)
    simp only [markBad, hnone, struck, hsame]
  | some e =>
    obtain ⟨k, r⟩ := e
    have hkey : v.replicaKey? name = some k := by rw [replicaKey?, hfind, Option.map_some]
    have hr : v.replicas.get? k = some r :=
      SortedMap.get?_eq_some_iff.mpr (List.mem_of_find?_eq_some hfind)
    simp only [markBad, hkey, hr, struck, SortedMap.insert,
      insert_eq_stampFirst v.replicas.sorted hfind]

theorem restamps_struck (v : Volume) (name : String) (now : Time.Timestamp) :
    Restamps v (v.struck name now) := by
  rw [← markBad_eq_struck]
  exact v.restamps_markBad name now

/-- The replica under a key is there and was found to be bad. -/
def Stamped (v : Volume) (k : String) : Prop := ∃ r, v.replicas.get? k = some r ∧ r.isBad = true

theorem stamped_markBad (now : Time.Timestamp) (h : v.replicaKey? name = some k) :
    (v.markBad name now).Stamped k := by
  obtain ⟨r, hr, -⟩ := exists_of_replicaKey? h
  refine ⟨{ r with badSince := some now }, ?_, rfl⟩
  rw [get?_markBad, if_pos h, hr, Option.map_some]

/-- A stamp is overwritten, but never taken away. -/
theorem Stamped.markBad (h : v.Stamped k) (name : String) (now : Time.Timestamp) :
    (v.markBad name now).Stamped k := by
  obtain ⟨r, hr, hbad⟩ := h
  by_cases hkey : v.replicaKey? name = some k
  · exact stamped_markBad now hkey
  · exact ⟨r, by rw [get?_markBad, if_neg hkey, hr], hbad⟩

end Volume

end HostAgent
