import HostAgent.Http.Exchange
import HostAgent.Proofs.Http.Paths
import Mathlib.Data.Bool.AllAny

namespace HostAgent

/-!
# Addresses below an endpoint

An endpoint is the address of a server, with a path of its own and any slashes at the end. What is
put after it, as a path of plain names, is read as the path below it.
-/

namespace Http

/-- A segment of a path that stands for itself. -/
structure IsName (s : String) : Prop where
  nonempty : s ≠ ""
  unreserved : ∀ c ∈ s.toList, Text.Percent.isUnreserved c = true
  notDots : s ≠ "." ∧ s ≠ ".."

instance (s : String) : Decidable (IsName s) :=
  decidable_of_iff (s ≠ "" ∧ s.toList.all Text.Percent.isUnreserved = true ∧ s ≠ "." ∧ s ≠ "..")
    ⟨fun ⟨h, hu, hd⟩ => ⟨h, List.all_eq_true.mp hu, hd⟩,
      fun ⟨h, hu, hd⟩ => ⟨h, List.all_eq_true.mpr hu, hd⟩⟩

theorem toNat_of_unreserved {c : Char} (h : Text.Percent.isUnreserved c = true) :
    0x20 < c.toNat ∧ c.toNat < 0x7F := by
  have hc := Text.Percent.toNat_of_unreserved h
  omega

/-- A sign that has no place among the unreserved ones. -/
theorem ne_of_unreserved {c d : Char} (h : Text.Percent.isUnreserved c = true)
    (hd : Text.Percent.isUnreserved d = false) : c ≠ d := by
  rintro rfl
  rw [h] at hd
  cases hd

theorem IsName.not_slash {s : String} (h : IsName s) {c : Char} (hc : c ∈ s.toList) :
    Url.isSlash true c = false := by
  rw [Bool.eq_false_iff]
  intro hslash
  simp only [Url.isSlash, Bool.true_and, Bool.or_eq_true, beq_iff_eq] at hslash
  rcases hslash with rfl | rfl <;> exact ne_of_unreserved (h.unreserved _ hc) (by decide) rfl

namespace Url

theorem inPath_of_unreserved {c : Char} (h : Text.Percent.isUnreserved c = true) :
    inPath c = true := by
  obtain ⟨hlow, hhigh⟩ := toNat_of_unreserved h
  have hmarks : ∀ d ∈ " \"#<>?`\x7b\x7d".toList, Text.Percent.isUnreserved d = false :=
    List.all_iff_forall_prop.mp (by decide)
  have hnone : " \"#<>?`\x7b\x7d".toList.contains c = false := by
    rw [Bool.eq_false_iff]
    intro hc
    exact ne_of_unreserved h (hmarks c (List.contains_iff_mem.mp hc)) rfl
  rw [inPath, isPlain, hnone]
  simp only [Bool.not_false, Bool.and_true, Bool.and_eq_true, decide_eq_true_eq]
  omega

theorem encode_inPath {s : String} (h : IsName s) : encode inPath s.toList = s := by
  have hself : ∀ l : List Char, (∀ c ∈ l, Text.Percent.isUnreserved c = true) →
      Text.Percent.encode inPath l = l := by
    intro l hl
    induction l with
    | nil => rfl
    | cons c l ih =>
      have hc := inPath_of_unreserved (hl c List.mem_cons_self)
      have hrest := ih fun d hd => hl d (List.mem_cons_of_mem _ hd)
      rw [Text.Percent.encode] at hrest ⊢
      rw [List.flatMap_cons, hrest, if_pos hc, List.singleton_append]
  rw [encode, hself _ h.unreserved, String.ofList_toList]

theorem dots_of_name {s : String} (h : IsName s) : dots s.toList = .name := by
  have hplain : '%' ∉ s.toList := fun hc =>
    ne_of_unreserved (h.unreserved '%' hc) (by decide) rfl
  have hescape := Text.Percent.NoEscape.append_left hplain Text.Percent.noEscape_nil
  rw [List.append_nil] at hescape
  have hne : ∀ t : String, s ≠ t → s.toList ≠ t.toList := fun t ht heq =>
    ht (String.toList_inj.mp heq)
  exact dots_of_noEscape hescape (hne "." h.notDots.1) (hne ".." h.notDots.2)

theorem resolve_names {l : List String} (hl : l ≠ []) (h : ∀ s ∈ l, IsName s)
    (acc : List String) : resolve (l.map String.toList) acc = acc.reverse ++ l := by
  have hdots : ∀ w ∈ l.map String.toList, dots w = .name := by
    intro w hw
    obtain ⟨s, hs, rfl⟩ := List.mem_map.mp hw
    exact dots_of_name (h s hs)
  rw [resolve_of_forall (by simpa using hl) hdots, List.map_map]
  congr 1
  exact (List.map_congr_left fun s hs => encode_inPath (h s hs)).trans (List.map_id l)

theorem splitWhere_names {s : String} {l : List String} (h : ∀ t ∈ s :: l, IsName t) :
    Text.splitWhere (isSlash true) (s.toList ++ l.flatMap fun s => '/' :: s.toList) =
      (s :: l).map String.toList := by
  have hs : ∀ c ∈ s.toList, isSlash true c = false := fun c hc =>
    (h s List.mem_cons_self).not_slash hc
  induction l generalizing s with
  | nil =>
    rw [List.flatMap_nil, List.append_nil]
    exact Text.splitWhere_of_forall hs
  | cons t l ih =>
    have hl : ∀ u ∈ t :: l, IsName u := fun u hu => h u (List.mem_cons_of_mem _ hu)
    have ht : ∀ c ∈ t.toList, isSlash true c = false := fun c hc =>
      (hl t List.mem_cons_self).not_slash hc
    rw [List.flatMap_cons, List.cons_append, Text.splitWhere_append hs rfl, ih hl ht,
      List.map_cons, List.map_cons, List.map_cons]

theorem segments_text {l : List String} (hl : l ≠ []) (h : ∀ s ∈ l, IsName s) :
    segments true (Path.segments l).text.toList = l := by
  cases l with
  | nil => exact absurd rfl hl
  | cons s l =>
    rw [toList_text, List.flatMap_cons]
    change resolve (Text.splitWhere (isSlash true) (s.toList ++ _)) [] = _
    rw [splitWhere_names h, resolve_names (List.cons_ne_nil s l) h, List.reverse_nil,
      List.nil_append]

end Url

/-- The address of a server, which may have a path of its own and slashes at the end. -/
structure Endpoint where
  scheme : String
  authority : String
  base : List String
  slashes : Nat
  host : String
  port : Option Nat
  web : scheme = "http" ∨ scheme = "https"
  plain : ∀ c ∈ authority.toList, c ∉ "\t\n\r/\\?#".toList
  read : Url.authority? scheme authority.toList = some (some host, port)
  named : ∀ s ∈ base, IsName s

namespace Endpoint

variable {e : Endpoint} {l : List String}

/-- The address without a path. -/
def origin (e : Endpoint) : String := e.scheme ++ "://" ++ e.authority

def text (e : Endpoint) : String :=
  e.origin ++ (Path.segments e.base).text ++ String.ofList (List.replicate e.slashes '/')

/-- The address of a path at the server. -/
def url (e : Endpoint) (l : List String) : Url :=
  ⟨e.scheme, some e.host, e.port, .segments l, none, none⟩

theorem authority_ne_nil (e : Endpoint) : e.authority.toList ≠ [] := by
  intro hnil
  have hnone : Url.authority? e.scheme [] = none := by
    rcases e.web with hweb | hweb <;>
    · rw [hweb]
      decide +kernel
  have hread := e.read
  rw [hnil, hnone] at hread
  cases hread

theorem isSpecial_scheme (e : Endpoint) : Url.isSpecial e.scheme = true := by
  rcases e.web with hweb | hweb <;>
  · rw [hweb]
    decide

theorem isFile_scheme (e : Endpoint) : Url.isFile e.scheme = false := by
  rcases e.web with hweb | hweb <;>
  · rw [hweb]
    decide

/-- The scheme of an endpoint is found in front of whatever follows. -/
theorem scheme?_append (e : Endpoint) (s : List Char) :
    Url.scheme? (e.scheme.toList ++ ':' :: s) = some (e.scheme, s) := by
  rcases e.web with hweb | hweb <;>
  · rw [hweb]
    rfl

end Endpoint

/-- A path of names holds slashes and unreserved signs only. -/
theorem mem_text {l : List String} (h : ∀ s ∈ l, IsName s) {c : Char}
    (hc : c ∈ (Path.segments l).text.toList) :
    c = '/' ∨ Text.Percent.isUnreserved c = true := by
  rw [Url.toList_text, List.mem_flatMap] at hc
  obtain ⟨s, hs, hc⟩ := hc
  rcases List.mem_cons.mp hc with rfl | hc
  · exact .inl rfl
  · exact .inr ((h s hs).unreserved c hc)

theorem not_mem_text {l : List String} (h : ∀ s ∈ l, IsName s) {c : Char} (hslash : c ≠ '/')
    (hc : Text.Percent.isUnreserved c = false) : c ∉ (Path.segments l).text.toList := by
  intro hmem
  rcases mem_text h hmem with rfl | hun
  · exact hslash rfl
  · exact ne_of_unreserved hun hc rfl

theorem exists_text_eq_cons {l : List String} (hl : l ≠ []) :
    ∃ t, (Path.segments l).text.toList = '/' :: t := by
  cases l with
  | nil => exact absurd rfl hl
  | cons s l =>
    rw [Url.toList_text, List.flatMap_cons]
    exact ⟨_, rfl⟩

/-- A path of names ends in a sign of a name. -/
theorem unreserved_of_getLast? {l : List String} (h : ∀ s ∈ l, IsName s) {c : Char}
    (hc : (Path.segments l).text.toList.getLast? = some c) :
    Text.Percent.isUnreserved c = true := by
  rw [Url.toList_text] at hc
  induction l with
  | nil => cases hc
  | cons s l ih =>
    have hs := h s List.mem_cons_self
    have hne : s.toList ≠ [] := fun hnil => hs.nonempty (String.toList_eq_nil_iff.mp hnil)
    rw [List.flatMap_cons, List.getLast?_append, Option.or_eq_some_iff] at hc
    rcases hc with hc | ⟨-, hc⟩
    · exact ih (fun t ht => h t (List.mem_cons_of_mem _ ht)) hc
    · rw [List.getLast?_cons, List.getLast?_eq_some_getLast hne, Option.getD_some,
        Option.some.injEq] at hc
      exact hs.unreserved c (hc ▸ List.getLast_mem hne)

theorem isPath_text {l : List String} (hl : l ≠ []) (h : ∀ s ∈ l, IsName s) :
    IsPath (Path.segments l).text where
  rooted := exists_text_eq_cons hl
  whole := by
    have hmarks : ∀ d ∈ "\t\n\r\\?#".toList, d ≠ '/' ∧ Text.Percent.isUnreserved d = false :=
      List.all_iff_forall_prop.mp (by decide)
    intro c hc
    exact not_mem_text h (hmarks c hc).1 (hmarks c hc).2
  closed := fun c hc => (toNat_of_unreserved (unreserved_of_getLast? h hc)).1

/-- A path stays one below names. -/
theorem IsPath.below {s : String} (hs : IsPath s) {l : List String} (h : ∀ s ∈ l, IsName s) :
    IsPath ((Path.segments l).text ++ s) where
  rooted := by
    obtain ⟨t, ht⟩ := hs.rooted
    rw [String.toList_append, ht]
    cases l with
    | nil => exact ⟨t, rfl⟩
    | cons a l =>
      obtain ⟨u, hu⟩ := exists_text_eq_cons (List.cons_ne_nil a l)
      rw [hu]
      exact ⟨_, rfl⟩
  whole := by
    intro c hc
    rw [String.toList_append, List.mem_append, not_or]
    refine ⟨?_, hs.whole c hc⟩
    cases l with
    | nil => simp [Path.text]
    | cons a l => exact (isPath_text (List.cons_ne_nil a l) h).whole c hc
  closed := by
    obtain ⟨t, ht⟩ := hs.rooted
    have hne : s.toList ≠ [] := by simp [ht]
    intro c hc
    rw [String.toList_append, List.getLast?_append, List.getLast?_eq_some_getLast hne,
      Option.some_or] at hc
    exact hs.closed c (by rw [List.getLast?_eq_some_getLast hne, hc])

/-- Below names, a path has their segments and its own. -/
theorem mem_splitWhere_below {l : List String} (h : ∀ s ∈ l, IsName s) {t w : List Char}
    (hw : w ∈ Text.splitWhere (Url.isSlash true) ((Path.segments l).text.toList ++ '/' :: t)) :
    w ∈ l.map String.toList ∨ w ∈ Text.splitWhere (Url.isSlash true) ('/' :: t) := by
  have hroot : ∀ s : List Char, Text.splitWhere (Url.isSlash true) ('/' :: s) =
      [] :: Text.splitWhere (Url.isSlash true) s := fun s => rfl
  induction l with
  | nil => exact .inr hw
  | cons a l ih =>
    have ha : ∀ c ∈ a.toList, Url.isSlash true c = false := fun c hc =>
      (h a List.mem_cons_self).not_slash hc
    obtain ⟨r, hr⟩ : ∃ r, (Path.segments l).text.toList ++ '/' :: t = '/' :: r := by
      cases l with
      | nil => exact ⟨t, rfl⟩
      | cons b l =>
        rw [Url.toList_text, List.flatMap_cons]
        exact ⟨_, rfl⟩
    have hrest := ih fun s hs => h s (List.mem_cons_of_mem _ hs)
    rw [hr] at hrest
    rw [Url.toList_text, List.flatMap_cons, ← Url.toList_text, List.append_assoc, hr,
      List.cons_append, hroot, Text.splitWhere_append ha rfl] at hw
    rcases List.mem_cons.mp hw with rfl | hw
    · exact .inr List.mem_cons_self
    rcases List.mem_cons.mp hw with rfl | hw
    · exact .inl List.mem_cons_self
    · exact (hrest (List.mem_cons_of_mem _ hw)).imp_left (List.mem_cons_of_mem _)

theorem IsVerbatim.below {s : String} (hs : IsVerbatim s) {l : List String}
    (h : ∀ s ∈ l, IsName s) : IsVerbatim ((Path.segments l).text ++ s) where
  toIsPath := hs.toIsPath.below h
  unescaped := by
    rw [String.toList_append]
    exact hs.unescaped.append_left (not_mem_text h (by decide) (by decide))
  undotted := by
    intro w hw
    obtain ⟨t, ht⟩ := hs.rooted
    rw [String.toList_append, ht] at hw
    rcases mem_splitWhere_below h hw with hw | hw
    · obtain ⟨a, ha, rfl⟩ := List.mem_map.mp hw
      have hne : ∀ t : String, a ≠ t → a.toList ≠ t.toList := fun t ht heq =>
        ht (String.toList_inj.mp heq)
      exact ⟨hne "." (h a ha).notDots.1, hne ".." (h a ha).notDots.2⟩
    · rw [← ht] at hw
      exact hs.undotted w hw

namespace Endpoint

variable {e : Endpoint} {l : List String} {s : String}

/-- The address of what is put after an endpoint as a path. -/
def address (e : Endpoint) (s : String) : Url :=
  ⟨e.scheme, some e.host, e.port, .segments (Url.segments true s.toList), none, none⟩

theorem not_slash_authority {c : Char} (hc : c ∈ e.authority.toList) :
    Url.isSlash true c = false := by
  rw [Bool.eq_false_iff]
  intro hslash
  simp only [Url.isSlash, Bool.true_and, Bool.or_eq_true, beq_iff_eq] at hslash
  rcases hslash with rfl | rfl <;> exact e.plain _ hc (by decide)

/-- The signs that could cut or change what is written there are neither in an authority nor in a
path. -/
theorem not_mem_append (h : IsPath s) {c : Char} (hc : c ∈ "\t\n\r\\?#".toList) :
    c ∉ e.authority.toList ++ s.toList := by
  have hmarks : ∀ d ∈ "\t\n\r\\?#".toList, d ∈ "\t\n\r/\\?#".toList :=
    List.all_iff_forall_prop.mp (by decide)
  intro hmem
  rcases List.mem_append.mp hmem with hmem | hmem
  · exact e.plain c hmem (hmarks c hc)
  · exact h.whole c hc hmem

theorem toList_origin_append (e : Endpoint) (s : String) : (e.origin ++ s).toList =
    e.scheme.toList ++ ':' :: '/' :: '/' :: (e.authority.toList ++ s.toList) := by
  simp [origin]

theorem clean_append (h : IsPath s) :
    Url.clean (e.origin ++ s) =
      e.scheme.toList ++ ':' :: '/' :: '/' :: (e.authority.toList ++ s.toList) := by
  have hmarks : ∀ m ∈ "\t\n\r".toList, m ∉ e.scheme.toList ∧ m ≠ ':' ∧ m ≠ '/' ∧
      m ∈ "\t\n\r\\?#".toList := by
    rcases e.web with hweb | hweb <;>
    · rw [hweb]
      exact List.all_iff_forall_prop.mp (by decide)
  rw [Url.clean, Text.trimWhile_eq_self, ← toList_origin_append, List.filter_eq_self]
  · have hnone : ∀ m ∈ "\t\n\r".toList, m ∉ (e.origin ++ s).toList := by
      intro m hm
      obtain ⟨hscheme, hcolon, hslash, hcut⟩ := hmarks m hm
      have hrest := e.not_mem_append h hcut
      rw [toList_origin_append]
      simp only [List.mem_append, List.mem_cons, not_or] at hrest ⊢
      exact ⟨hscheme, hcolon, hslash, hslash, hrest⟩
    intro c hc
    simp only [Bool.and_eq_true, bne_iff_ne]
    refine ⟨⟨?_, ?_⟩, ?_⟩ <;>
    · rintro rfl
      exact hnone _ (by decide) hc
  · intro c hc
    rw [toList_origin_append] at hc
    rcases e.web with hweb | hweb <;>
    · rw [hweb] at hc
      cases hc
      decide
  · intro c hc
    obtain ⟨t, ht⟩ := h.rooted
    have hne : s.toList ≠ [] := by simp [ht]
    have hpath : s.toList.getLast? = some c := by
      rw [String.toList_append, List.getLast?_append, List.getLast?_eq_some_getLast hne,
        Option.some_or] at hc
      rw [List.getLast?_eq_some_getLast hne, hc]
    simpa using h.closed c hpath

/-- A path that is put after the origin of an endpoint is read as one there. -/
theorem parse_append (h : IsPath s) : Url.parse (e.origin ++ s) = some (e.address s) := by
  obtain ⟨t, ht⟩ := h.rooted
  have hclean := e.clean_append h
  have hplain : ∀ c ∈ "\t\n\r\\?#".toList, c ∉ e.authority.toList ++ s.toList :=
    fun c hc => e.not_mem_append h hc
  rw [Endpoint.address]
  generalize s.toList = path at *
  have hhash : ('/' :: '/' :: (e.authority.toList ++ path)).span (· != '#') =
      ('/' :: '/' :: (e.authority.toList ++ path), []) := by
    apply Text.span_of_forall
    intro c hc
    rw [bne_iff_ne]
    rintro rfl
    simp only [List.mem_cons] at hc
    exact hplain '#' (by decide) (by simpa using hc)
  have hquery : (e.authority.toList ++ path).span (· != '?') =
      (e.authority.toList ++ path, []) := by
    apply Text.span_of_forall
    intro c hc
    rw [bne_iff_ne]
    rintro rfl
    exact hplain '?' (by decide) hc
  have hopens : ('/' :: '/' :: (e.authority.toList ++ path)).takeWhile (Url.isSlash true) =
      ['/', '/'] := by
    obtain ⟨c, r, hcr⟩ := List.exists_cons_of_ne_nil e.authority_ne_nil
    have hc : Url.isSlash true c = false := e.not_slash_authority (hcr ▸ List.mem_cons_self)
    rw [hcr]
    change '/' :: '/' :: (c :: (r ++ path)).takeWhile (Url.isSlash true) = _
    rw [List.takeWhile_cons, hc]
    rfl
  have hauthority : (e.authority.toList ++ path).span (fun c => !Url.isSlash true c) =
      (e.authority.toList, path) := by
    rw [ht]
    refine Text.span_append_cons (fun c hc => ?_) rfl
    rw [e.not_slash_authority hc]
    rfl
  rw [Url.parse, hclean, scheme?_append]
  simp only [Option.bind_eq_bind, Option.bind_some, e.isSpecial_scheme, e.isFile_scheme, hhash,
    hopens]
  simp only [Bool.not_false, Bool.and_self, if_true, List.length_cons, List.length_nil,
    List.drop_succ_cons, List.drop_zero, hquery, hauthority, e.read]
  rw [if_pos (.inl (by decide)), Option.bind_some, Url.pathAfterHost, ht]
  rfl

theorem address_text (e : Endpoint) (hl : l ≠ []) (h : ∀ s ∈ l, IsName s) :
    e.address (Path.segments l).text = e.url l := by
  rw [Endpoint.address, Url.segments_text hl h, url]

theorem text_append (a b : List String) :
    (Path.segments (a ++ b)).text = (Path.segments a).text ++ (Path.segments b).text := by
  rw [← String.toList_inj, String.toList_append]
  simp only [Url.toList_text, List.flatMap_append]

theorem trimSlashes_text (e : Endpoint) :
    Text.trimSlashes e.text = e.origin ++ (Path.segments e.base).text := by
  apply Text.trimSlashes_append
  intro c hc
  rw [String.toList_append, List.getLast?_append, Option.or_eq_some_iff] at hc
  rcases hc with hc | ⟨-, hc⟩
  · exact ne_of_unreserved (unreserved_of_getLast? e.named hc) (by decide)
  · rw [origin, String.toList_append, List.getLast?_append,
      List.getLast?_eq_some_getLast e.authority_ne_nil, Option.some_or, Option.some.injEq] at hc
    rintro rfl
    exact e.plain '/' (hc ▸ List.getLast_mem e.authority_ne_nil) (by decide)

/-- What is put after the text of an endpoint, as a path, is the path below it. -/
theorem address?_append (e : Endpoint) (h : IsPath s) :
    address? (Text.trimSlashes e.text ++ s) =
      .ok (e.address ((Path.segments e.base).text ++ s)) := by
  have hreachable : (e.address ((Path.segments e.base).text ++ s)).isReachable = true := by
    rcases e.web with hweb | hweb <;> simp [Url.isReachable, Endpoint.address, hweb]
  rw [address?, trimSlashes_text, String.append_assoc, parse_append (h.below e.named)]
  simp only [hreachable, if_true]

end Endpoint

end Http

end HostAgent
