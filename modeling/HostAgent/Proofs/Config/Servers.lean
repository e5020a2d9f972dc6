import HostAgent.Proofs.Config.CommandLine

namespace HostAgent.Config

/-!
# Endpoints of the store

The texts given for the endpoints are cut at commas, one after the other, and nothing of them is
lost. A text is never cut into nothing: only where none is given is a configuration without
endpoints, and is turned down. What stands in a gap is an endpoint without a name.
-/

/-- A text with nothing before a comma, after one or between two. -/
inductive HasGap : String → Prop
  | blank : HasGap ""
  | first (u : String) : HasGap ("," ++ u)
  | last (u : String) : HasGap (u ++ ",")
  | between (u w : String) : HasGap (u ++ ",," ++ w)

section Parts

variable {t : String} {l : List String}

theorem intercalate_comma (t : String) : ",".intercalate (Text.splitAt ',' t) = t :=
  Text.intercalate_splitAt ',' t

theorem splitAt_comma (s t : String) :
    Text.splitAt ',' (s ++ "," ++ t) = Text.splitAt ',' s ++ Text.splitAt ',' t :=
  Text.splitAt_append ',' s t

theorem splitAt_comma_append (t : String) :
    Text.splitAt ',' ("," ++ t) = "" :: Text.splitAt ',' t := by
  have hcut := splitAt_comma "" t
  rw [String.empty_append] at hcut
  exact hcut

theorem append_commas (u w : String) : u ++ "," ++ ("," ++ w) = u ++ ",," ++ w := by
  have hcommas : ",," = "," ++ "," := rfl
  simp only [hcommas, String.append_assoc]

theorem hasGap_of_mem_splitAt (h : "" ∈ Text.splitAt ',' t) : HasGap t := by
  have ht := intercalate_comma t
  obtain ⟨before, after, hparts⟩ := List.append_of_mem h
  rw [hparts] at ht
  by_cases hbefore : before = []
  · subst hbefore
    by_cases hafter : after = []
    · subst hafter
      exact ht ▸ .blank
    · rw [List.nil_append, String.intercalate_cons_of_ne_nil hafter, String.empty_append] at ht
      exact ht ▸ .first _
  · rw [String.intercalate_append_of_ne_nil hbefore (List.cons_ne_nil _ _)] at ht
    by_cases hafter : after = []
    · subst hafter
      rw [String.intercalate_singleton, String.append_empty] at ht
      exact ht ▸ .last _
    · rw [String.intercalate_cons_of_ne_nil hafter, String.empty_append, append_commas] at ht
      exact ht ▸ .between _ _

theorem mem_splitAt_of_hasGap (h : HasGap t) : "" ∈ Text.splitAt ',' t := by
  cases h with
  | blank => exact List.mem_cons_self
  | first u =>
    rw [splitAt_comma_append]
    exact List.mem_cons_self
  | last u =>
    have hcut := splitAt_comma u ""
    rw [String.append_empty] at hcut
    rw [hcut]
    exact List.mem_append_right _ List.mem_cons_self
  | between u w =>
    rw [← append_commas, splitAt_comma, splitAt_comma_append]
    exact List.mem_append_right _ List.mem_cons_self

/-- A part is empty exactly where there is a gap. -/
theorem mem_splitAt_iff_hasGap : "" ∈ Text.splitAt ',' t ↔ HasGap t :=
  ⟨hasGap_of_mem_splitAt, mem_splitAt_of_hasGap⟩

/-- The parts of texts are, with commas between them, the texts with commas between them. -/
theorem intercalate_flatMap :
    ",".intercalate (l.flatMap (Text.splitAt ',')) = ",".intercalate l := by
  induction l with
  | nil => rfl
  | cons t l ih =>
    cases l with
    | nil => rw [List.flatMap_singleton, intercalate_comma, String.intercalate_singleton]
    | cons u l =>
      have hne : (u :: l).flatMap (Text.splitAt ',') ≠ [] := by
        rw [List.flatMap_cons]
        exact List.append_ne_nil_of_left_ne_nil (Text.splitAt_ne_nil _ _) _
      rw [List.flatMap_cons, String.intercalate_append_of_ne_nil (Text.splitAt_ne_nil _ _) hne, ih,
        intercalate_comma, String.intercalate_cons_cons]

theorem flatMap_splitAt_eq_nil_iff : l.flatMap (Text.splitAt ',') = [] ↔ l = [] := by
  cases l with
  | nil => exact Iff.rfl
  | cons t l => simp [Text.splitAt_ne_nil]

theorem not_mem_of_mem_flatMap {e : String} (h : e ∈ l.flatMap (Text.splitAt ',')) :
    ',' ∉ e.toList := by
  obtain ⟨t, -, he⟩ := List.mem_flatMap.mp h
  exact Text.not_mem_of_mem_splitAt he

theorem forall_flatMap_iff_hasGap :
    (∀ e ∈ l.flatMap (Text.splitAt ','), e ≠ "") ↔ ∀ t ∈ l, ¬ HasGap t := by
  have hmem : "" ∈ l.flatMap (Text.splitAt ',') ↔ ∃ t ∈ l, HasGap t := by
    simp only [List.mem_flatMap, mem_splitAt_iff_hasGap]
  rw [List.forall_mem_ne', hmem]
  push Not
  rfl

end Parts

/-! ## What is given for the endpoints -/

section Given

variable {args : List String} {env : String → Option String} {uses : List Use} {g : Given}
variable {c : Config}

theorem parse_eq_ok_iff : parse args env = .ok c ↔ ∃ g, read args env = .ok g ∧ c = ofGiven g := by
  rw [parse]
  cases read args env with
  | error e => simp [Except.map]
  | ok g => simp [Except.map, eq_comm]

theorem gather_lists {l : List String} {v w : Option (List String)}
    (h : gather .texts v l = .ok w) : w.getD [] = v.getD [] ++ l.flatMap (Text.splitAt ',') := by
  induction l generalizing v with
  | nil =>
    cases h
    rw [List.flatMap_nil, List.append_nil]
  | cons t l ih =>
    obtain ⟨(a : List String), ha, h⟩ := gather_cons_eq_ok_iff.mp h
    have ha' : a = v.getD [] ++ Text.splitAt ',' t := by
      cases v <;> cases ha <;> rfl
    have hrest : w.getD [] = a ++ l.flatMap (Text.splitAt ',') := ih h
    rw [hrest, ha', List.append_assoc, List.flatMap_cons]

theorem servers_eq_flatMap (h : parse args env = .ok c) (hline : Line args uses) :
    c.servers = (texts env uses .servers).flatMap (Text.splitAt ',') := by
  obtain ⟨g, hread, rfl⟩ := parse_eq_ok_iff.mp h
  have hkind : Setting.servers.kind ≠ .switch := by decide
  exact gather_lists (gather_texts hkind hread hline)

theorem exists_line (h : parse args env = .ok c) : ∃ uses, Line args uses := by
  obtain ⟨g, hread, -⟩ := parse_eq_ok_iff.mp h
  obtain ⟨g₁, hargs, -⟩ := bind_eq_ok_iff.mp hread
  obtain ⟨uses, hline, -⟩ := readArguments_eq_ok_iff.mp hargs
  exact ⟨uses, hline⟩

theorem validate_eq_ok_iff (h : c.simulated = false) : c.validate = .ok () ↔ c.servers ≠ [] := by
  rw [validate, h]
  cases c.servers <;> simp

theorem message_validate_iff (h : c.simulated = false) :
    c.validate.mapError Invalid.message = .error "unspecified etcd servers" ↔ c.servers = [] := by
  rw [validate, h]
  cases c.servers <;> simp [Except.mapError, Invalid.message]

end Given

/-- The endpoints are what flags or, without any, the variable gave, cut at commas, and one of them
is empty exactly where a text has a gap. Only for want of any text is a configuration turned
down. -/
theorem servers_as_given {args : List String} {env : String → Option String} {c : Config}
    (h : parse args env = .ok c) :
    (∃ uses, Line args uses) ∧ ∀ uses, Line args uses →
      ",".intercalate c.servers = ",".intercalate (texts env uses .servers) ∧
      (∀ e ∈ c.servers, ',' ∉ e.toList) ∧
      ((∀ e ∈ c.servers, e ≠ "") ↔ ∀ t ∈ texts env uses .servers, ¬ HasGap t) ∧
      (c.simulated = false →
        (c.validate = .ok () ↔ c.servers ≠ []) ∧
        (c.validate.mapError Invalid.message = .error "unspecified etcd servers" ↔
          texts env uses .servers = [])) := by
  refine ⟨exists_line h, fun uses hline => ?_⟩
  have hservers := servers_eq_flatMap h hline
  refine ⟨?_, fun e he => ?_, ?_, fun hsim => ⟨validate_eq_ok_iff hsim, ?_⟩⟩
  · rw [hservers, intercalate_flatMap]
  · rw [hservers] at he
    exact not_mem_of_mem_flatMap he
  · rw [hservers, forall_flatMap_iff_hasGap]
  · rw [message_validate_iff hsim, hservers, flatMap_splitAt_eq_nil_iff]

/-- An environment in which only the endpoints are set. -/
def onlyServers (text name : String) : Option String :=
  if name = Setting.servers.variableName then some text else none

def givenTwice : List String :=
  ["--etcd-servers", "http://a,http://b", "--etcd-servers=http://c"]

theorem line_givenTwice :
    Line givenTwice [.value .servers "http://a,http://b", .value .servers "http://c"] := by
  have hflag : "--" ++ Setting.servers.flagName = "--etcd-servers" := by decide
  have hattached : "--" ++ Setting.servers.flagName ++ "=" ++ "http://c" =
      "--etcd-servers=http://c" := by decide
  have hplain : IsPlain "http://a,http://b" := .inr (by decide)
  have hsecond := Line.attached (s := .servers) (by decide) "http://c" .nil
  rw [hattached] at hsecond
  have hboth := Line.apart (s := .servers) (by decide) hplain hsecond
  rw [hflag] at hboth
  exact hboth

/-- Both uses of the flag count, and the variable does not. -/
theorem servers_as_given_twice :
    ∃ c, parse givenTwice (onlyServers "http://d") = .ok c ∧ c.simulated = false ∧
      c.validate = .ok () ∧ ",".intercalate c.servers = "http://a,http://b,http://c" ∧
      ∀ e ∈ c.servers, e ≠ "" := by
  obtain ⟨c, hparse, hsim⟩ : ∃ c, parse givenTwice (onlyServers "http://d") = .ok c ∧
    c.simulated = false := ⟨_, rfl, rfl⟩
  obtain ⟨-, hgiven⟩ := servers_as_given hparse
  obtain ⟨hjoin, -, hgap, hvalid⟩ := hgiven _ line_givenTwice
  have htexts : texts (onlyServers "http://d") [.value .servers "http://a,http://b",
    .value .servers "http://c"] .servers = ["http://a,http://b", "http://c"] := rfl
  rw [htexts] at hjoin hgap
  have hservers : c.servers ≠ [] := by
    intro hnil
    rw [hnil] at hjoin
    exact absurd hjoin (by decide)
  refine ⟨c, hparse, hsim, (hvalid hsim).1.mpr hservers, hjoin, hgap.mpr ?_⟩
  simp only [List.forall_mem_cons, ← mem_splitAt_iff_hasGap]
  decide

/-- An empty value, a comma too many and an empty variable are accepted. -/
theorem blank_servers_accepted :
    (∃ c, parse ["--etcd-servers="] (fun _ => none) = .ok c ∧ c.simulated = false ∧
      c.validate = .ok () ∧ c.servers = [""]) ∧
    (∃ c, parse ["--etcd-servers", "a,,b"] (fun _ => none) = .ok c ∧ c.simulated = false ∧
      c.validate = .ok () ∧ c.servers = ["a", "", "b"]) ∧
    (∃ c, parse [] (onlyServers "") = .ok c ∧ c.simulated = false ∧
      c.validate = .ok () ∧ c.servers = [""]) :=
  ⟨⟨_, rfl, rfl, rfl, rfl⟩, ⟨_, rfl, rfl, rfl, rfl⟩, ⟨_, rfl, rfl, rfl, rfl⟩⟩

end HostAgent.Config
