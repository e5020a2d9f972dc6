import HostAgent.FilePath
import HostAgent.Proofs.Text.Cutting

namespace HostAgent.FilePath

/-!
# Where paths lead

A path leads from the top, or from where one stands, down the names between its slashes, and up
where two dots stand for a name. Links are not followed here, so what counts is the text.
-/

variable {root name : String} {cwd base top l : List String} {d e : Nat}

/-! ## Texts -/

def IsRooted (p : String) : Prop := p.toList.head? = some '/'

instance (p : String) : Decidable (IsRooted p) := inferInstanceAs (Decidable (_ = _))

/-- A directory after whose text a slash has to be put before a name. -/
def IsOpen (root : String) : Prop := root ≠ "" ∧ root.toList.getLast? ≠ some '/'

instance (root : String) : Decidable (IsOpen root) := inferInstanceAs (Decidable (_ ∧ _))

theorem join_of_isRooted (h : IsRooted name) : join root name = name := if_pos h

theorem join_of_isOpen (h : ¬ IsRooted name) (hroot : IsOpen root) :
    join root name = root ++ "/" ++ name := by
  have hname : ¬ name.toList.head? = some '/' := h
  rw [join, if_neg hname, if_neg (not_or.mpr hroot)]

theorem join_of_not_isOpen (h : ¬ IsRooted name) (hroot : ¬ IsOpen root) :
    join root name = root ++ name := by
  have hname : ¬ name.toList.head? = some '/' := h
  rw [IsOpen, not_and_or, not_not, not_not] at hroot
  rw [join, if_neg hname, if_pos hroot]

/-- The name stands after the directory and a slash unless it is a path of its own, or the directory
has no end to put a slash after. -/
theorem join_eq_iff : join root name = root ++ "/" ++ name ↔ ¬ IsRooted name ∧ IsOpen root := by
  constructor
  · intro h
    have hlength := congrArg (fun s => s.toList.length) h
    simp only [String.toList_append, List.length_append] at hlength
    have hslash : "/".toList.length = 1 := rfl
    by_cases hname : IsRooted name
    · rw [join_of_isRooted hname] at hlength
      omega
    · refine ⟨hname, not_not.mp fun hroot => ?_⟩
      rw [join_of_not_isOpen hname hroot, String.toList_append, List.length_append] at hlength
      omega
  · rintro ⟨hname, hroot⟩
    exact join_of_isOpen hname hroot

/-! ## Steps -/

/-- The steps of a path; an empty name and a single dot lead nowhere. -/
def steps (p : String) : List String := (Text.splitAt '/' p).filter fun s => s != "" && s != "."

theorem steps_append_slash (a b : String) : steps (a ++ "/" ++ b) = steps a ++ steps b := by
  have hlist : (a ++ "/" ++ b).toList = a.toList ++ '/' :: b.toList := by simp
  rw [steps, Text.splitAt, hlist, Text.splitWhere_append_cons rfl, List.map_append,
    List.filter_append]
  rfl

@[simp] theorem steps_empty : steps "" = [] := by decide

theorem steps_join (h : ¬ IsRooted name) : steps (join root name) = steps root ++ steps name := by
  by_cases hroot : IsOpen root
  · rw [join_of_isOpen h hroot, steps_append_slash]
  rw [join_of_not_isOpen h hroot]
  rw [IsOpen, not_and_or, not_not, not_not] at hroot
  rcases hroot with rfl | hlast
  · rw [String.empty_append, steps_empty, List.nil_append]
  · -- The slash at the end is the one to cut at.
    obtain ⟨r, hr⟩ := List.getLast?_eq_some_iff.mp hlast
    have hroot : root = String.ofList r ++ "/" := by
      rw [← String.toList_inj, String.toList_append, String.toList_ofList]
      exact hr
    have hdir := steps_append_slash (String.ofList r) ""
    rw [String.append_empty, steps_empty, List.append_nil] at hdir
    rw [hroot, steps_append_slash, hdir]

/-- The place after one step. A place is the names that lead there, the last one first. -/
def step (place : List String) (s : String) : List String :=
  if s = ".." then place.tail else s :: place

def walk (place : List String) (l : List String) : List String := l.foldl step place

theorem step_up (place : List String) : step place ".." = place.tail := if_pos rfl

theorem step_of_ne {s : String} (h : s ≠ "..") (place : List String) :
    step place s = s :: place := if_neg h

theorem walk_cons (place : List String) (s : String) (l : List String) :
    walk place (s :: l) = walk (step place s) l := rfl

/-- Where a path leads, for one who stands at a place. -/
def place (cwd : List String) (p : String) : List String :=
  walk (if IsRooted p then [] else cwd) (steps p)

theorem isRooted_join (h : ¬ IsRooted name) : IsRooted (join root name) ↔ IsRooted root := by
  by_cases hempty : root = ""
  · subst hempty
    rw [join_of_not_isOpen h fun hopen => hopen.1 rfl, String.empty_append]
    exact ⟨fun hname => absurd hname h, fun hroot => by cases hroot⟩
  · have hne : root.toList ≠ [] := fun hnil => hempty (String.toList_eq_nil_iff.mp hnil)
    obtain ⟨c, r, hroot⟩ := List.exists_cons_of_ne_nil hne
    have hhead : ∀ t : String, IsRooted (root ++ t) ↔ IsRooted root := by
      intro t
      rw [IsRooted, IsRooted, String.toList_append, hroot]
      rfl
    by_cases hopen : IsOpen root
    · rw [join_of_isOpen h hopen, String.append_assoc, hhead]
    · rw [join_of_not_isOpen h hopen, hhead]

/-- A name leads on from its directory. -/
theorem place_join (h : ¬ IsRooted name) :
    place cwd (join root name) = walk (place cwd root) (steps name) := by
  rw [place, place, steps_join h, walk, List.foldl_append]
  simp only [isRooted_join h]
  rfl

theorem place_join_of_isRooted (h : IsRooted name) :
    place cwd (join root name) = walk [] (steps name) := by
  rw [join_of_isRooted h, place, if_pos h]

/-! ## Names of files -/

/-- A name that a directory can have for a file. -/
structure IsFileName (name : String) : Prop where
  nonempty : name ≠ ""
  whole : '/' ∉ name.toList
  undotted : name ≠ "." ∧ name ≠ ".."

theorem IsFileName.not_isRooted (h : IsFileName name) : ¬ IsRooted name :=
  fun hrooted => h.whole (List.mem_of_head? hrooted)

theorem IsFileName.steps (h : IsFileName name) : FilePath.steps name = [name] := by
  have hsplit : Text.splitWhere (· == '/') name.toList = [name.toList] := by
    apply Text.splitWhere_of_forall
    intro c hc
    rw [beq_eq_false_iff_ne]
    rintro rfl
    exact h.whole hc
  rw [FilePath.steps, Text.splitAt, hsplit, List.map_singleton, String.ofList_toList,
    List.filter_cons_of_pos (by simp [h.nonempty, h.undotted.1]), List.filter_nil]

/-- A file is the one of its name in the directory. -/
theorem IsFileName.place_join (h : IsFileName name) (cwd : List String) (root : String) :
    place cwd (join root name) = name :: place cwd root := by
  rw [FilePath.place_join h.not_isRooted, h.steps, walk_cons, step_of_ne h.undotted.2]
  rfl

/-! ## Below a directory -/

/-- A path leads to somewhere within a directory, and not to the directory itself. -/
def IsBelow (cwd : List String) (dir p : String) : Prop :=
  place cwd dir <:+ place cwd p ∧ place cwd p ≠ place cwd dir

instance (cwd : List String) (dir p : String) : Decidable (IsBelow cwd dir p) :=
  inferInstanceAs (Decidable (_ ∧ _))

/-- How far below steps end, for one who is some way below already, if they never lead above. -/
def depth : Nat → List String → Option Nat
  | d, [] => some d
  | d, s :: l =>
    if s = ".." then if d = 0 then none else depth (d - 1) l
    else depth (d + 1) l

/-- A name leads from any directory to somewhere below it, and never above it on the way. -/
structure Descends (name : String) : Prop where
  relative : ¬ IsRooted name
  deep : ∃ d, depth 0 (steps name) = some (d + 1)

/-- Steps that never lead above a place leave it where it is. -/
theorem walk_of_depth (top base : List String) (h : depth top.length l = some e) :
    ∃ top', top'.length = e ∧ walk (top ++ base) l = top' ++ base := by
  induction l generalizing top with
  | nil => exact ⟨top, Option.some.inj h, rfl⟩
  | cons s l ih =>
    rw [depth] at h
    split at h
    next hs =>
      subst hs
      rw [walk_cons, step_up]
      cases top with
      | nil => cases h
      | cons t top => exact ih top h
    next hs =>
      rw [walk_cons, step_of_ne hs]
      exact ih (s :: top) h

theorem not_mem_walk {s : String} (hplace : s ∉ top) (hl : s ∉ l) : s ∉ walk top l := by
  induction l generalizing top with
  | nil => exact hplace
  | cons t l ih =>
    rw [List.mem_cons, not_or] at hl
    rw [walk_cons]
    refine ih ?_ hl.2
    by_cases ht : t = ".."
    · rw [ht, step_up]
      exact fun hmem => hplace (List.mem_of_mem_tail hmem)
    · rw [step_of_ne ht]
      exact List.not_mem_cons_of_ne_of_not_mem hl.1 hplace

/-- Steps that lead above a place leave it for good, if its name is not among them. -/
theorem not_mem_walk_of_depth {s : String} (top : List String) (h : depth top.length l = none)
    (htop : s ∉ top) (hl : s ∉ l) : s ∉ walk (top ++ [s]) l := by
  induction l generalizing top with
  | nil => cases h
  | cons t l ih =>
    rw [List.mem_cons, not_or] at hl
    rw [depth] at h
    split at h
    next ht =>
      subst ht
      rw [walk_cons, step_up]
      cases top with
      | nil => exact not_mem_walk List.not_mem_nil hl.2
      | cons u top => exact ih top h (fun hu => htop (List.mem_cons_of_mem _ hu)) hl.2
    next ht =>
      rw [walk_cons, step_of_ne ht]
      exact ih (t :: top) h (List.not_mem_cons_of_ne_of_not_mem hl.1 htop) hl.2

theorem Descends.isBelow (h : Descends name) (cwd : List String) (root : String) :
    IsBelow cwd root (join root name) := by
  obtain ⟨hrelative, d, hd⟩ := h
  obtain ⟨l, hl, hwalk⟩ := walk_of_depth [] (place cwd root) hd
  rw [List.nil_append, ← place_join hrelative] at hwalk
  refine ⟨⟨l, hwalk.symm⟩, fun heq => ?_⟩
  rw [heq] at hwalk
  rw [List.self_eq_append_left.mp hwalk] at hl
  cases hl

theorem IsFileName.descends (h : IsFileName name) : Descends name where
  relative := h.not_isRooted
  deep := by
    rw [h.steps]
    refine ⟨0, ?_⟩
    rw [depth, if_neg h.undotted.2, depth]

/-- A name that is too long to be a step of a path. -/
def apart (p : String) : String := String.ofList ('a' :: List.replicate p.toList.length 'a')

theorem apart_not_mem (p : String) : apart p ∉ steps p := by
  intro h
  obtain ⟨w, hw, hp⟩ := List.mem_map.mp (List.mem_filter.mp h).1
  have hlength := (Text.infix_of_mem_splitWhere hw).length_le
  have happart := congrArg (fun s => s.toList.length) hp
  simp only [String.toList_ofList, apart, List.length_cons, List.length_replicate] at happart
  omega

theorem isFileName_apart (p : String) : IsFileName (apart p) := by
  have hlist : (apart p).toList = 'a' :: List.replicate p.toList.length 'a' :=
    String.toList_ofList
  have hne : ∀ {s : String}, s.toList.head? ≠ some 'a' → apart p ≠ s := by
    rintro s hs rfl
    rw [hlist] at hs
    exact hs rfl
  refine ⟨hne (by decide), fun h => ?_, hne (by decide), hne (by decide)⟩
  rw [hlist, ← List.replicate_succ] at h
  cases List.eq_of_mem_replicate h

theorem place_apart (cwd : List String) (p : String) :
    place cwd (join "/" (apart p)) = [apart p] := by
  have htop : place cwd "/" = [] := by
    rw [place, if_pos (by decide)]
    decide
  rw [(isFileName_apart p).place_join, htop]

/-- A name that leads below every directory does so by never leaving it. -/
theorem descends_iff :
    Descends name ↔ ∀ cwd root, IsBelow cwd root (join root name) := by
  constructor
  · exact fun h cwd root => h.isBelow cwd root
  · intro h
    obtain ⟨hbelow, hne⟩ := h [] (join "/" (apart name))
    rw [place_apart] at hbelow hne
    have hfound := hbelow.mem (List.mem_singleton_self _)
    have hrelative : ¬ IsRooted name := by
      intro hname
      rw [place_join_of_isRooted hname] at hfound
      exact not_mem_walk List.not_mem_nil (apart_not_mem name) hfound
    refine ⟨hrelative, ?_⟩
    rw [place_join hrelative, place_apart] at hne hfound
    cases hdepth : depth 0 (steps name) with
    | none =>
      exact absurd hfound
        (not_mem_walk_of_depth [] hdepth List.not_mem_nil (apart_not_mem name))
    | some d =>
      cases d with
      | zero =>
        obtain ⟨l, hl, hwalk⟩ := walk_of_depth [] [apart name] hdepth
        rw [List.eq_nil_of_length_eq_zero hl] at hwalk
        exact absurd hwalk hne
      | succ d => exact ⟨d, rfl⟩

end HostAgent.FilePath
