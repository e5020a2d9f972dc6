import HostAgent.Config
import HostAgent.Proofs.Text.Cutting
import Mathlib.Data.List.Nodup

namespace HostAgent.Config

/-!
# Command lines

What arguments say, apart from how they are read: uses of flags, one after the other. Exactly the
arguments that say something are read, and what is read is what the uses give, from the first to the
last. A variable only counts where no use does.
-/

/-! ## Uses of flags -/

/-- A use of a flag. -/
inductive Use where
  | value (s : Setting) (text : String)
  /-- The flag stands for itself. -/
  | switch (s : Setting)

/-- What a flag cannot be taken for: the value of another one may be an argument of its own. -/
def IsPlain (text : String) : Prop := text = "-" ∨ text.toList.head? ≠ some '-'

/-- The uses of flags that arguments are. Two dashes may end them. -/
inductive Line : List String → List Use → Prop
  | nil : Line [] []
  | escape : Line ["--"] []
  | attached {args : List String} {uses : List Use} {s : Setting} (hs : s.kind ≠ .switch)
      (text : String) (h : Line args uses) :
      Line (("--" ++ s.flagName ++ "=" ++ text) :: args) (.value s text :: uses)
  | apart {args : List String} {uses : List Use} {s : Setting} {text : String}
      (hs : s.kind ≠ .switch) (htext : IsPlain text) (h : Line args uses) :
      Line (("--" ++ s.flagName) :: text :: args) (.value s text :: uses)
  | switch {args : List String} {uses : List Use} {s : Setting} (hs : s.kind = .switch)
      (h : Line args uses) : Line (("--" ++ s.flagName) :: args) (.switch s :: uses)

/-- What a use makes of what was given before. -/
def Use.apply (g : Given) : Use → Except Fault Given
  | .value s text => g.accept s text
  | .switch s => turnOn g s

/-! ## Arguments -/

namespace Argument

variable {a text name : String} {r : List Char}

theorem ofString_dashes (h : a.toList = '-' :: '-' :: r) (hr : r ≠ []) :
    ofString a =
      match r.span (· != '=') with
      | (name, _ :: value) => .long (String.ofList name) (some (String.ofList value))
      | (name, []) => .long (String.ofList name) none := by
  rw [ofString, h]
  cases r with
  | nil => exact absurd rfl hr
  | cons c r => rfl

theorem ofString_attached (hname : '=' ∉ name.toList) :
    ofString ("--" ++ name ++ "=" ++ text) = .long name (some text) := by
  have hlist : ("--" ++ name ++ "=" ++ text).toList =
      '-' :: '-' :: (name.toList ++ '=' :: text.toList) := by
    simp
  rw [ofString_dashes hlist (by simp), Text.span_append_cons _ rfl]
  · simp
  · intro c hc
    rw [bne_iff_ne]
    rintro rfl
    exact hname hc

theorem ofString_name (hname : '=' ∉ name.toList) (hne : name ≠ "") :
    ofString ("--" ++ name) = .long name none := by
  have hlist : ("--" ++ name).toList = '-' :: '-' :: name.toList := by simp
  rw [ofString_dashes hlist (by simpa using hne), Text.span_of_forall]
  · simp
  · intro c hc
    rw [bne_iff_ne]
    rintro rfl
    exact hname hc

theorem ofString_plain (h : IsPlain a) : ofString a = .plain a := by
  rcases h with rfl | h
  · rfl
  · rw [ofString]
    split <;> simp_all

/-- What an argument can be. -/
inductive Shape (a : String) : Prop
  | escape (h : a = "--")
  | attached {name text : String} (hname : '=' ∉ name.toList) (h : a = "--" ++ name ++ "=" ++ text)
  | name {name : String} (hname : '=' ∉ name.toList) (hne : name ≠ "") (h : a = "--" ++ name)
  | short {c : Char} (h : ofString a = .short c)
  | plain (h : IsPlain a)

theorem shape_of_dashes (h : a.toList = '-' :: '-' :: r) : Shape a := by
  by_cases hr : r = []
  · refine .escape ?_
    rw [← String.toList_inj, h, hr]
    rfl
  by_cases hmem : '=' ∈ r
  · obtain ⟨name, text, rfl, hname⟩ := List.eq_append_cons_of_mem hmem
    have ha : a = "--" ++ String.ofList name ++ "=" ++ String.ofList text := by
      rw [← String.toList_inj, h]
      simp
    exact .attached (by simpa) ha
  · have ha : a = "--" ++ String.ofList r := by
      rw [← String.toList_inj, h]
      simp
    exact .name (by simpa) (by simpa using hr) ha

theorem shape (a : String) : Shape a := by
  cases ha : a.toList with
  | nil => exact .plain (.inr (by simp [ha]))
  | cons c r =>
    by_cases hc : c = '-'
    · subst hc
      cases r with
      | nil => exact .plain (.inl (by rw [← String.toList_inj, ha]; rfl))
      | cons d r =>
        by_cases hd : d = '-'
        · subst hd
          exact shape_of_dashes ha
        · refine .short (c := d) ?_
          rw [ofString, ha]
          split <;> simp_all
    · exact .plain (.inr (by simpa [ha] using hc))

end Argument

theorem Setting.flagName_ne_help (s : Setting) : s.flagName ≠ "help" := by
  cases s <;> decide

theorem Setting.flagName_ne_version (s : Setting) : s.flagName ≠ "version" := by
  cases s <;> decide

theorem Flag.ofName?_flagName (s : Setting) : ofName? s.flagName = some (.setting s) := by
  rw [ofName?, if_neg s.flagName_ne_help, if_neg s.flagName_ne_version, Setting.ofFlag?_flagName]
  rfl

theorem Flag.flagName_of_ofName? {name : String} {s : Setting}
    (h : ofName? name = some (.setting s)) : name = s.flagName := by
  rw [ofName?] at h
  split at h
  · cases h
  split at h
  · cases h
  obtain ⟨t, ht, heq⟩ := Option.map_eq_some_iff.mp h
  obtain rfl := Flag.setting.inj heq
  rw [Setting.ofFlag?] at ht
  have hname := List.find?_some ht
  exact (beq_iff_eq.mp hname).symm

theorem Setting.not_mem_flagName (s : Setting) : '=' ∉ s.flagName.toList := by
  cases s <;> decide

theorem Setting.flagName_ne (s : Setting) : s.flagName ≠ "" := by
  cases s <;> decide

/-! ## Reading arguments -/

section Reading

variable {args : List String} {uses : List Use} {p : Pending} {g g' g₁ : Given} {s : Setting}
variable {text : String}

theorem bind_eq_ok_iff {α β : Type} {x : Except Fault α} {f : α → Except Fault β} {b : β} :
    (x >>= f) = .ok b ↔ ∃ a, x = .ok a ∧ f a = .ok b := by
  cases x with
  | error e => simp [bind, Except.bind]
  | ok a => simp [bind, Except.bind]

theorem readArguments_attached (hs : s.kind ≠ .switch) :
    readArguments (("--" ++ s.flagName ++ "=" ++ text) :: args) p g =
      settle p g >>= fun g => g.accept s text >>= readArguments args none := by
  rw [readArguments, Argument.ofString_attached s.not_mem_flagName]
  simp only [Flag.ofName?_flagName, if_neg hs]

theorem readArguments_flag (hs : s.kind ≠ .switch) :
    readArguments (("--" ++ s.flagName) :: args) p g =
      settle p g >>= readArguments args (some (s, none)) := by
  rw [readArguments, Argument.ofString_name s.not_mem_flagName s.flagName_ne]
  simp only [Flag.ofName?_flagName, if_neg hs]

theorem readArguments_switch (hs : s.kind = .switch) :
    readArguments (("--" ++ s.flagName) :: args) p g =
      settle p g >>= fun g => turnOn g s >>= readArguments args none := by
  rw [readArguments, Argument.ofString_name s.not_mem_flagName s.flagName_ne]
  simp only [Flag.ofName?_flagName, if_pos hs]

theorem readArguments_plain (h : IsPlain text) :
    readArguments (text :: args) (some (s, none)) g =
      readArguments args (some (s, some text)) g := by
  rw [readArguments, Argument.ofString_plain h]

theorem readArguments_escape :
    readArguments ("--" :: args) p g = if args.isEmpty then settle p g else .error .unknown := rfl

theorem readArguments_short {a : String} {c : Char} (h : Argument.ofString a = .short c) :
    readArguments (a :: args) p g ≠ .ok g' := by
  intro hread
  rw [readArguments, h] at hread
  simp only at hread
  split at hread
  · obtain ⟨g₁, -, herror⟩ := bind_eq_ok_iff.mp hread
    cases herror
  · obtain ⟨g₁, -, herror⟩ := bind_eq_ok_iff.mp hread
    cases herror
  · cases hread

/-- What arguments say is read as their uses give it. -/
theorem readArguments_line (h : Line args uses) (p : Pending) (g : Given) :
    readArguments args p g = settle p g >>= fun g => uses.foldlM Use.apply g := by
  induction h generalizing p g with
  | nil =>
    rw [readArguments_nil]
    exact (bind_pure _).symm
  | escape => exact (bind_pure _).symm
  | attached hs text h ih =>
    rw [readArguments_attached hs]
    simp only [List.foldlM_cons, Use.apply]
    congr 1; funext g; congr 1; funext g
    rw [ih]
    rfl
  | apart hs htext h ih =>
    rw [readArguments_flag hs]
    congr 1; funext g
    rw [readArguments_plain htext, ih]
    rfl
  | switch hs h ih =>
    rw [readArguments_switch hs]
    congr 1; funext g
    simp only [List.foldlM_cons, Use.apply]
    congr 1; funext g
    rw [ih]
    rfl

/-- A value is attached to flags only that take one. -/
theorem exists_setting_of_attached {name : String} (hname : '=' ∉ name.toList)
    (h : readArguments (("--" ++ name ++ "=" ++ text) :: args) p g = .ok g') :
    ∃ s : Setting, name = s.flagName ∧ s.kind ≠ .switch := by
  rw [readArguments, Argument.ofString_attached hname] at h
  cases hflag : Flag.ofName? name with
  | none => simp only [hflag, reduceCtorEq] at h
  | some flag =>
    cases flag with
    | help | version => simp only [hflag, reduceCtorEq] at h
    | setting s =>
      refine ⟨s, Flag.flagName_of_ofName? hflag, fun hs => ?_⟩
      simp only [hflag, if_pos hs, reduceCtorEq] at h

theorem exists_setting_of_name {name : String} (hname : '=' ∉ name.toList) (hne : name ≠ "")
    (h : readArguments (("--" ++ name) :: args) p g = .ok g') :
    ∃ s : Setting, name = s.flagName := by
  rw [readArguments, Argument.ofString_name hname hne] at h
  cases hflag : Flag.ofName? name with
  | none => simp only [hflag, reduceCtorEq] at h
  | some flag =>
    cases flag with
    | help | version =>
      simp only [hflag] at h
      obtain ⟨g₁, -, herror⟩ := bind_eq_ok_iff.mp h
      cases herror
    | setting s => exact ⟨s, Flag.flagName_of_ofName? hflag⟩

/-- What arguments have to go on with, after a flag that may be owed its value. -/
def Continues : Pending → List String → Prop
  | some (_, none), args => ∃ text rest uses, args = text :: rest ∧ IsPlain text ∧ Line rest uses
  | _, args => ∃ uses, Line args uses

theorem continues_of_settle (h : settle p g = .ok g₁) (hline : Line args uses) :
    Continues p args := by
  match p with
  | none => exact ⟨uses, hline⟩
  | some (s, none) => cases h
  | some (s, some text) => exact ⟨uses, hline⟩

/-- Whatever is read says something. -/
theorem continues_of_readArguments (h : readArguments args p g = .ok g') : Continues p args := by
  induction args generalizing p g with
  | nil => exact continues_of_settle h .nil
  | cons a args ih =>
    cases Argument.shape a with
    | escape ha =>
      subst ha
      rw [readArguments_escape] at h
      split at h
      next hargs =>
        rw [List.isEmpty_iff.mp hargs]
        exact continues_of_settle h .escape
      next => cases h
    | attached hname ha =>
      subst ha
      obtain ⟨s, rfl, hs⟩ := exists_setting_of_attached hname h
      rw [readArguments_attached hs] at h
      obtain ⟨g₁, hsettle, h⟩ := bind_eq_ok_iff.mp h
      obtain ⟨g₂, -, h⟩ := bind_eq_ok_iff.mp h
      obtain ⟨uses, hline⟩ := ih h
      exact continues_of_settle hsettle (.attached hs _ hline)
    | name hname hne ha =>
      subst ha
      obtain ⟨s, rfl⟩ := exists_setting_of_name hname hne h
      by_cases hs : s.kind = .switch
      · rw [readArguments_switch hs] at h
        obtain ⟨g₁, hsettle, h⟩ := bind_eq_ok_iff.mp h
        obtain ⟨g₂, -, h⟩ := bind_eq_ok_iff.mp h
        obtain ⟨uses, hline⟩ := ih h
        exact continues_of_settle hsettle (.switch hs hline)
      · rw [readArguments_flag hs] at h
        obtain ⟨g₁, hsettle, h⟩ := bind_eq_ok_iff.mp h
        obtain ⟨text, rest, uses, rfl, htext, hline⟩ := ih h
        exact continues_of_settle hsettle (.apart hs htext hline)
    | short ha => exact absurd h (readArguments_short ha)
    | plain ha =>
      match p with
      | some (s, none) =>
        rw [readArguments_plain ha] at h
        obtain ⟨uses, hline⟩ := ih h
        exact ⟨a, args, uses, rfl, ha, hline⟩
      | none | some (s, some text) =>
        rw [readArguments, Argument.ofString_plain ha] at h
        cases h

/-- Exactly what says something is read. -/
theorem readArguments_eq_ok_iff :
    readArguments args none g = .ok g' ↔
      ∃ uses, Line args uses ∧ uses.foldlM Use.apply g = .ok g' := by
  constructor
  · intro h
    obtain ⟨uses, hline⟩ := continues_of_readArguments h
    rw [readArguments_line hline] at h
    exact ⟨uses, hline, h⟩
  · rintro ⟨uses, hline, h⟩
    rw [readArguments_line hline]
    exact h

end Reading

/-! ## What a setting is given -/

/-- The text that a use gives a setting. -/
def Use.text? (s : Setting) : Use → Option String
  | .value t text => if t = s then some text else none
  | .switch _ => none

/-- The texts that a setting is given: by the uses of its flag or, without any, by its variable. -/
def texts (env : String → Option String) (uses : List Use) (s : Setting) : List String :=
  if uses.filterMap (Use.text? s) = [] then (env s.variableName).toList
  else uses.filterMap (Use.text? s)

/-- What texts add to the value of a setting, one after the other. -/
def gather (k : Kind) (v : Option k.Value) (l : List String) : Except Fault (Option k.Value) :=
  l.foldlM (fun v text => (k.extend v text).map some) v

section Gathering

variable {env : String → Option String} {k : Kind} {v w : Option k.Value} {l : List String}
variable {uses : List Use} {g g' : Given} {s t : Setting} {text : String}

theorem gather_cons_eq_ok_iff :
    gather k v (text :: l) = .ok w ↔
      ∃ a, k.extend v text = .ok a ∧ gather k (some a) l = .ok w := by
  rw [gather, List.foldlM_cons, bind_eq_ok_iff]
  cases k.extend v text with
  | error e => simp [Except.map]
  | ok a => simp [Except.map, gather]

theorem isSome_of_gather (h : gather k v l = .ok w) (hgiven : v.isSome ∨ l ≠ []) : w.isSome := by
  induction l generalizing v with
  | nil =>
    cases h
    simpa using hgiven
  | cons text l ih =>
    obtain ⟨a, -, h⟩ := gather_cons_eq_ok_iff.mp h
    exact ih h (.inl rfl)

theorem accept_eq_ok (h : g.accept s text = .ok g') :
    ∃ a, s.kind.extend (g s) text = .ok a ∧ g' = g.set s a := by
  rw [Given.accept] at h
  cases ha : s.kind.extend (g s) text with
  | error e =>
    rw [ha] at h
    cases h
  | ok a =>
    rw [ha] at h
    cases h
    exact ⟨a, rfl, rfl⟩

theorem turnOn_eq_ok (h : turnOn g t = .ok g') (hs : s.kind ≠ .switch) : g' s = g s := by
  cases t with
  | simulated =>
    have hne : s ≠ .simulated := by
      rintro rfl
      exact hs rfl
    rw [turnOn] at h
    split at h
    · cases h
    · cases h
      exact Given.set_of_ne g _ hne
  | _ => cases h

/-- The uses of a flag give its setting what their texts come to. -/
theorem gather_uses (hs : s.kind ≠ .switch) (h : uses.foldlM Use.apply g = .ok g') :
    gather s.kind (g s) (uses.filterMap (Use.text? s)) = .ok (g' s) := by
  induction uses generalizing g with
  | nil =>
    cases h
    rfl
  | cons u uses ih =>
    rw [List.foldlM_cons] at h
    obtain ⟨g₁, hu, h⟩ := bind_eq_ok_iff.mp h
    have hrest := ih h
    cases u with
    | switch t =>
      rw [turnOn_eq_ok hu hs] at hrest
      exact hrest
    | value t text =>
      obtain ⟨a, ha, rfl⟩ := accept_eq_ok hu
      by_cases ht : t = s
      · subst ht
        rw [Given.set_same] at hrest
        have htext : Use.text? t (.value t text) = some text := if_pos rfl
        rw [List.filterMap_cons_some htext]
        exact gather_cons_eq_ok_iff.mpr ⟨a, ha, hrest⟩
      · rw [Given.set_of_ne g a (Ne.symm ht)] at hrest
        have htext : Use.text? s (.value t text) = none := if_neg ht
        rwa [List.filterMap_cons_none htext]

/-! ## Variables -/

theorem readVariable_of_ne (h : readVariable env g t = .ok g') (hne : s ≠ t) : g' s = g s := by
  rw [readVariable] at h
  split at h
  · cases h
    rfl
  split at h
  · cases h
    rfl
  · obtain ⟨a, -, rfl⟩ := accept_eq_ok h
    exact Given.set_of_ne g a hne

theorem foldlM_readVariable_of_notMem {settings : List Setting}
    (h : settings.foldlM (readVariable env) g = .ok g') (hs : s ∉ settings) : g' s = g s := by
  induction settings generalizing g with
  | nil =>
    cases h
    rfl
  | cons t settings ih =>
    rw [List.foldlM_cons] at h
    obtain ⟨g₁, ht, h⟩ := bind_eq_ok_iff.mp h
    rw [List.mem_cons, not_or] at hs
    rw [ih h hs.2, readVariable_of_ne ht hs.1]

theorem readVariable_same (h : readVariable env g s = .ok g') :
    ((g s).isSome ∧ g' s = g s) ∨
      (g s = none ∧ gather s.kind none (env s.variableName).toList = .ok (g' s)) := by
  rw [readVariable] at h
  cases hgiven : g s with
  | some a =>
    rw [hgiven, Option.isSome_some, if_pos rfl] at h
    cases h
    exact .inl ⟨rfl, hgiven⟩
  | none =>
    rw [hgiven, Option.isSome_none, if_neg Bool.false_ne_true] at h
    refine .inr ⟨rfl, ?_⟩
    cases henv : env s.variableName with
    | none =>
      simp only [henv] at h
      cases h
      rw [hgiven]
      rfl
    | some text =>
      simp only [henv] at h
      obtain ⟨a, ha, rfl⟩ := accept_eq_ok h
      rw [hgiven] at ha
      exact gather_cons_eq_ok_iff.mpr ⟨a, ha, by rw [Given.set_same]; rfl⟩

theorem nodup_all : Setting.all.Nodup := by decide

/-- What is read for a setting that takes values is what its texts come to. -/
theorem gather_texts {args : List String} (hs : s.kind ≠ .switch)
    (h : read args env = .ok g) (hline : Line args uses) :
    gather s.kind none (texts env uses s) = .ok (g s) := by
  obtain ⟨g₁, hargs, hvariables⟩ := bind_eq_ok_iff.mp h
  rw [readArguments_line hline] at hargs
  have huses := gather_uses hs hargs
  obtain ⟨before, after, hall⟩ := List.append_of_mem s.mem_all
  have hnodup := nodup_all
  rw [hall, List.nodup_middle, List.nodup_cons, List.mem_append, not_or] at hnodup
  rw [hall, List.foldlM_append] at hvariables
  obtain ⟨g₂, hbefore, hvariables⟩ := bind_eq_ok_iff.mp hvariables
  rw [List.foldlM_cons] at hvariables
  obtain ⟨g₃, hsame, hafter⟩ := bind_eq_ok_iff.mp hvariables
  have hg₂ := foldlM_readVariable_of_notMem hbefore hnodup.1.1
  have hg := foldlM_readVariable_of_notMem hafter hnodup.1.2
  rcases readVariable_same hsame with ⟨hsome, hkept⟩ | ⟨hnone, hvariable⟩
  · have hgiven : uses.filterMap (Use.text? s) ≠ [] := by
      intro hempty
      rw [hempty] at huses
      have hnone : none = g₁ s := Except.ok.inj huses
      rw [hg₂, ← hnone] at hsome
      cases hsome
    rw [texts, if_neg hgiven, hg, hkept, hg₂]
    exact huses
  · have hempty : uses.filterMap (Use.text? s) = [] := by
      by_contra hgiven
      have hsome := isSome_of_gather huses (.inr hgiven)
      rw [← hg₂, hnone] at hsome
      cases hsome
    rw [texts, if_pos hempty, hg]
    exact hvariable

end Gathering

end HostAgent.Config
