import HostAgent.Proofs.Store.KeyAnswers
import HostAgent.Proofs.Store.Listing
import Mathlib.Data.List.Infix

namespace HostAgent.Store.Keys

/-!
# A server of keys in one map

Records and directories in one map, and a counter that counts changes. It meets what is asked of a
server of keys.
-/

/-! ## Directories -/

/-- The directories above a key. -/
def directories (key : String) : List String :=
  (key.toList.inits.filter fun p => (p ++ ['/']).isPrefixOf key.toList).map String.ofList

theorem mem_directories {dir key : String} : dir ∈ directories key ↔ Below dir key := by
  rw [directories, List.mem_map, Below, String.toList_append]
  constructor
  · rintro ⟨p, hp, rfl⟩
    rw [List.mem_filter, List.isPrefixOf_iff_prefix] at hp
    rw [String.toList_ofList]
    exact hp.2
  · intro h
    refine ⟨dir.toList, List.mem_filter.mpr ⟨?_, List.isPrefixOf_iff_prefix.mpr h⟩,
      String.ofList_toList⟩
    exact (List.mem_inits _ _).mpr ((List.prefix_append _ _).trans h)

def withDirectories (m : SortedMap Content) (dirs : List String) : SortedMap Content :=
  dirs.foldl (fun m dir => m.insert dir .directory) m

theorem get?_withDirectories (m : SortedMap Content) (dirs : List String) (j : String) :
    (withDirectories m dirs).get? j = if j ∈ dirs then some .directory else m.get? j := by
  induction dirs generalizing m with
  | nil => simp [withDirectories]
  | cons dir dirs ih =>
    rw [withDirectories, List.foldl_cons]
    refine (ih _).trans ?_
    rw [SortedMap.get?_insert]
    by_cases hj : j = dir <;> simp [hj]

/-- Whether a key is directly below a directory, under a name that listings have. -/
def isListed (dir key : String) : Bool :=
  let start := dir ++ "/"
  let name := key.toList.drop start.length
  Memory.startsWith start key && Memory.isChild start key && name != [] && name.head? != some '_'

theorem isListed_iff {dir key : String} :
    isListed dir key = true ↔
      ∃ name, key = dir ++ "/" ++ name ∧ name ≠ "" ∧ '/' ∉ name.toList ∧ ¬ Hidden name := by
  have hdrop : ∀ name : String,
      (dir ++ "/" ++ name).toList.drop (dir ++ "/").length = name.toList := by
    intro name
    rw [String.toList_append, ← String.length_toList, List.drop_left]
  simp only [isListed, Bool.and_eq_true, bne_iff_ne]
  constructor
  · rintro ⟨⟨⟨hstart, hchild⟩, hname⟩, hhidden⟩
    obtain ⟨name, rfl⟩ := Memory.exists_of_startsWith hstart
    rw [hdrop] at hname hhidden
    exact ⟨name, rfl, fun h => hname (h ▸ rfl), Memory.isChild_append_iff.mp hchild, hhidden⟩
  · rintro ⟨name, rfl, hname, hslash, hhidden⟩
    rw [hdrop]
    exact ⟨⟨⟨Memory.startsWith_append _ name, Memory.isChild_append_iff.mpr hslash⟩,
      fun h => hname (String.toList_eq_nil_iff.mp h)⟩, hhidden⟩

/-! ## Contents -/

/-- What the server keeps. No record has an index that was not given yet. -/
structure Shelf where
  contents : SortedMap Content
  index : Nat
  bounded : ∀ key e, contents.get? key = some (.record e) → e.index ≤ index

namespace Shelf

def empty (index : Nat) : Shelf := ⟨.empty, index, nofun⟩

def tree (s : Shelf) : Tree := ⟨s.contents.get?, s.index⟩

def children (s : Shelf) (dir : String) : List (String × Content) :=
  s.contents.entries.filter fun c => isListed dir c.1

theorem lists_children (s : Shelf) (dir : String) : s.tree.Lists dir (s.children dir) where
  ascending := s.contents.sorted.filter _
  mem_iff key c := by
    rw [children, List.mem_filter, isListed_iff, ← SortedMap.get?_eq_some_iff]
    rfl

def write (s : Shelf) (key value : String) : Shelf where
  contents := (withDirectories s.contents (directories key)).insert key
    (.record ⟨value, s.index + 1⟩)
  index := s.index + 1
  bounded := by
    intro j e he
    rw [SortedMap.get?_insert, get?_withDirectories] at he
    split_ifs at he
    · cases he
      exact Nat.le_refl _
    · cases he
    · exact Nat.le_succ_of_le (s.bounded j e he)

theorem tree_write (s : Shelf) (key value : String) :
    (s.write key value).tree = s.tree.write key value (s.index + 1) := by
  refine congrArg (Tree.mk · (s.index + 1)) (funext fun j => ?_)
  change ((withDirectories s.contents (directories key)).insert key _).get? j = _
  rw [SortedMap.get?_insert, get?_withDirectories]
  simp only [mem_directories]
  rfl

def erase (s : Shelf) (key : String) : Shelf where
  contents := s.contents.erase key
  index := s.index + 1
  bounded := by
    intro j e he
    rw [SortedMap.get?_erase] at he
    split_ifs at he
    exact Nat.le_succ_of_le (s.bounded j e he)

theorem tree_erase (s : Shelf) (key : String) :
    (s.erase key).tree = s.tree.erase key (s.index + 1) :=
  congrArg (Tree.mk · (s.index + 1)) (funext fun j => SortedMap.get?_erase s.contents key j)

/-! ## Answers -/

/-- The status and the code with which a change is refused: its condition does not hold, or a
directory stands in its place. -/
def refusal? (query : List (String × String)) : Option Content → Option (Nat × Nat)
  | some .directory => some (403, 102)
  | some (.record e) =>
    if query = [("prevExist", "false")] then some (412, 105)
    else if (query.lookup "prevIndex").any (· ≠ toString e.index) then some (412, 101)
    else none
  | none => if (query.lookup "prevIndex").isSome then some (404, 100) else none

def take (s : Shelf) (q : Asked) : Answer × Shelf :=
  match q.method, s.contents.get? q.key with
  | .get, some (.record e) => (.node q.key e, s)
  | .get, some .directory => (.directory q.key (s.children q.key), s)
  | .put, content =>
    match refusal? q.query content with
    | some (status, code) => (.fault status code, s)
    | none =>
      let value := (q.form.lookup "value").getD ""
      (.node q.key ⟨value, s.index + 1⟩, s.write q.key value)
  | .delete, some (.record _) => (.done, s.erase q.key)
  | _, some _ => (.fault 403 102, s)
  | _, none => (.fault 404 100, s)

section Takes

variable {s : Shelf} {query : List (String × String)} {key value : String} {e : Entry}

theorem take_put (h : refusal? query (s.contents.get? key) = none) :
    s.take ⟨.put, key, query, [("value", value)]⟩ =
      (.node key ⟨value, s.index + 1⟩, s.write key value) := by
  rw [take]
  simp only [h]
  rfl

theorem take_put_refused {form : List (String × String)} {status code : Nat}
    (h : refusal? query (s.contents.get? key) = some (status, code)) :
    s.take ⟨.put, key, query, form⟩ = (.fault status code, s) := by
  rw [take]
  simp only [h]

theorem refusal?_stale {index : Nat} (h : e.index ≠ index) :
    refusal? [("prevIndex", toString index)] (some (.record e)) = some (412, 101) := by
  have hne : toString index ≠ toString e.index := fun heq => h (Text.eq_of_toString_eq heq.symm)
  rw [refusal?, if_neg (by simp), if_pos (by simpa using hne)]

theorem refusal?_current :
    refusal? [("prevIndex", toString e.index)] (some (.record e)) = none := by
  rw [refusal?, if_neg (by simp), if_neg (by simp)]

theorem absent_or_record (h : s.contents.get? key ≠ some .directory) :
    s.contents.get? key = none ∨ ∃ e, s.contents.get? key = some (.record e) := by
  match hcontent : s.contents.get? key with
  | none => exact .inl rfl
  | some (.record e) => exact .inr ⟨e, rfl⟩
  | some .directory => exact absurd hcontent h

theorem absent_or_directory (h : ∀ e, s.contents.get? key ≠ some (.record e)) :
    s.contents.get? key = none ∨ s.contents.get? key = some .directory := by
  match hcontent : s.contents.get? key with
  | none => exact .inl rfl
  | some (.record e) => exact absurd hcontent (h e)
  | some .directory => exact .inr rfl

theorem refusal?_set (h : s.contents.get? key ≠ some .directory) :
    refusal? [] (s.contents.get? key) = none := by
  rcases absent_or_record h with hnone | ⟨e, he⟩
  · rw [hnone]
    rfl
  · rw [he]
    rfl

theorem takes (s : Shelf) {c : Call} (hadmits : s.tree.Admits c) :
    Takes s.tree c (s.take (asked c)).1 (s.take (asked c)).2.tree := by
  cases c with
  | get key =>
    rcases absent_or_record hadmits.1 with h | ⟨e, h⟩
    · simp only [asked, take, h]
      exact .missing h
    · simp only [asked, take, h]
      exact .found h
  | list dir =>
    rcases absent_or_directory hadmits with h | h
    · simp only [asked, take, h]
      exact .unlisted h
    · simp only [asked, take, h]
      exact .listed h (s.lists_children dir)
  | set key value =>
    rw [asked, take_put (refusal?_set hadmits.1), tree_write]
    exact .set (Nat.lt_succ_self _)
  | create key value =>
    rcases absent_or_record hadmits.1 with h | ⟨e, h⟩
    · rw [asked, take_put (by rw [h]; rfl), tree_write]
      exact .created h (Nat.lt_succ_self _)
    · rw [asked, take_put_refused (by rw [h]; rfl)]
      exact .existing h
  | compareAndSet key value index =>
    rcases absent_or_record hadmits.1 with h | ⟨e, h⟩
    · rw [asked, take_put_refused (by rw [h]; rfl)]
      exact .gone h
    by_cases hindex : e.index = index
    · subst hindex
      rw [asked, take_put (by rw [h]; exact refusal?_current), tree_write]
      exact .swapped h (Nat.lt_succ_self _)
    · rw [asked, take_put_refused (by rw [h]; exact refusal?_stale hindex)]
      exact .stale h hindex
  | delete key =>
    rcases absent_or_record hadmits.1 with h | ⟨e, h⟩
    · simp only [asked, take, h]
      exact .undeleted h
    · simp only [asked, take, h]
      rw [tree_erase]
      exact .deleted h (Nat.le_succ _)

/-- The counter counts at most one change at a time. -/
theorem index_take (s : Shelf) (q : Asked) :
    (s.take q).2.index = s.index ∨ (s.take q).2.index = s.index + 1 := by
  unfold take
  split
  next => exact .inl rfl
  next => exact .inl rfl
  next =>
    split
    · exact .inl rfl
    · exact .inr rfl
  next => exact .inr rfl
  next => exact .inl rfl
  next => exact .inl rfl

end Takes

end Shelf

/-! ## Responses -/

/-- A node below another one, as it is told. -/
def nodeJson : String × Content → Json
  | (key, .record e) => .object [("key", .string key), ("value", .string e.value),
      ("modifiedIndex", .number (.integer e.index))]
  | (key, .directory) => .object [("key", .string key), ("dir", .bool true)]

namespace Answer

def members : Answer → List (String × Json)
  | .node key e => [("node", nodeJson (key, .record e))]
  | .directory key nodes => [("node", .object [("key", .string key), ("dir", .bool true),
      ("nodes", .array (nodes.map nodeJson))])]
  | .done => []
  | .fault _ code => [("errorCode", .number (.integer code)), ("message", .string "refused")]

def response (a : Answer) : Http.Response where
  status := match a with
    | .fault status _ => status
    | _ => 200
  body := Text.Utf8.encode (Json.object a.members).text

end Answer

theorem saysNode_nodeJson (c : String × Content) : SaysNode (nodeJson c) c := by
  obtain ⟨key, _ | _⟩ := c
  · exact .record (by simp) rfl rfl rfl (.inl rfl) rfl
  · exact .directory (by simp) rfl rfl nofun rfl rfl

theorem saysNodes_nodeJson (l : List (String × Content)) :
    List.Forall₂ SaysNode (l.map nodeJson) l := by
  rw [List.forall₂_map_left_iff]
  exact List.forall₂_same.mpr fun c _ => saysNode_nodeJson c

theorem integral_nodeJson {c : String × Content} (h : ∀ e, c.2 = .record e → e.index < wordLimit) :
    Json.Integral (nodeJson c) := by
  obtain ⟨key, e | _⟩ := c
  · have hindex := h e rfl
    unfold wordLimit at hindex
    simp [nodeJson, Json.Integral, Json.IntegralMembers, Json.IsWord]
    omega
  · simp [nodeJson, Json.Integral, Json.IntegralMembers]

theorem depth_nodeJson (c : String × Content) : Json.depth (nodeJson c) = 1 := by
  obtain ⟨key, _ | _⟩ := c <;> rfl

theorem integralItems_nodeJson {l : List (String × Content)}
    (h : ∀ c ∈ l, ∀ e, c.2 = .record e → e.index < wordLimit) :
    Json.IntegralItems (l.map nodeJson) := by
  induction l with
  | nil => trivial
  | cons c l ih =>
    exact ⟨integral_nodeJson (h c List.mem_cons_self),
      ih fun d hd => h d (List.mem_cons_of_mem _ hd)⟩

theorem depthItems_nodeJson (l : List (String × Content)) :
    Json.depthItems (l.map nodeJson) ≤ 1 := by
  induction l with
  | nil => decide
  | cons c l ih =>
    rw [List.map_cons, Json.depthItems, depth_nodeJson]
    exact Nat.max_le.mpr ⟨Nat.le_refl 1, ih⟩

/-- The members of an answer can be sent. -/
structure Sendable (a : Answer) : Prop where
  distinct : (a.members.map Prod.fst).Nodup
  integral : Json.IntegralMembers a.members
  shallow : Json.depthMembers a.members < 127

theorem Sendable.hasBody {a : Answer} (h : Sendable a) : HasBody a.response a.members :=
  .of_text h.distinct h.integral (Nat.succ_lt_succ h.shallow)

theorem code_lt_of_takes {t t' : Tree} {c : Call} {status code : Nat}
    (h : Takes t c (.fault status code) t') : code < wordLimit := by
  cases h <;> decide

theorem sendable {t t' : Tree} {c : Call} {a : Answer} (h : Takes t c a t')
    (ha : Etcd.Readable a) : Sendable a := by
  cases a with
  | node key e =>
    have hintegral : Json.Integral (nodeJson (key, .record e)) :=
      integral_nodeJson fun e' he' => by cases he'; exact ha
    exact ⟨by simp [Answer.members], ⟨hintegral, trivial⟩,
      by simp [Answer.members, Json.depthMembers, depth_nodeJson]⟩
  | directory key nodes =>
    have hdepth := depthItems_nodeJson nodes
    refine ⟨by simp [Answer.members], ?_, ?_⟩
    · simp [Answer.members, Json.IntegralMembers, Json.Integral, integralItems_nodeJson ha]
    · simp only [Answer.members, Json.depthMembers, Json.depth]
      omega
  | done => exact ⟨by decide, trivial, by decide⟩
  | fault status code =>
    have hcode := code_lt_of_takes h
    unfold wordLimit at hcode
    refine ⟨by simp [Answer.members], ?_, by simp [Answer.members, Json.depthMembers, Json.depth]⟩
    simp only [Answer.members, Json.IntegralMembers, Json.Integral, Json.IsWord, and_true]
    omega

theorem saidBy_response {t t' : Tree} {c : Call} {a : Answer} (h : Takes t c a t')
    (ha : Etcd.Readable a) : a.SaidBy a.response := by
  have hbody := (sendable h ha).hasBody
  cases a with
  | node key e => exact ⟨rfl, _, _, hbody, rfl, saysNode_nodeJson _⟩
  | directory key nodes =>
    refine ⟨rfl, _, _, hbody, rfl, ?_⟩
    exact {
      distinct := by simp
      key := rfl
      value := rfl
      index := nofun
      dir := rfl
      nodes := .inr ⟨_, rfl, saysNodes_nodeJson nodes⟩ }
  | done => rfl
  | fault status code => exact ⟨rfl, _, "refused", hbody, rfl, rfl⟩

/-! ## The server -/

/-- What is read in a request, at an endpoint without a path of its own. -/
def readRequest (r : Http.Request) : Asked where
  method := r.method
  key := String.ofList ((Text.Percent.text r.url.path.text.toList).toList.drop "/v2/keys".length)
  query := Text.Percent.decodeForm (r.url.query.getD "").toList
  form := form r

theorem readRequest_of_asks {e : Http.Endpoint} (he : e.base = []) {r : Http.Request} {q : Asked}
    (h : Asks e r q) : readRequest r = q := by
  have hkey : String.ofList ((Text.Percent.text r.url.path.text.toList).toList.drop
      "/v2/keys".length) = q.key := by
    rw [h.path, he]
    have hdrop : ("/v2/keys" ++ q.key).toList.drop "/v2/keys".length = q.key.toList := by
      rw [String.toList_append, ← String.length_toList, List.drop_left]
    have hroot : (Http.Path.segments []).text = "" := rfl
    rw [hroot, String.empty_append, hdrop, String.ofList_toList]
  rw [readRequest, h.method, hkey, h.query, h.form]

/-- A server of keys of which the endpoints at one host are up. -/
def Shelf.server (endpoints : List Http.Endpoint) (hbase : ∀ e ∈ endpoints, e.base = [])
    (host : String) : KeyServer endpoints where
  State := Shelf
  tree := Shelf.tree
  respond r s :=
    if r.url.host = some host then
      (.answered (s.take (readRequest r)).1.response, (s.take (readRequest r)).2)
    else (.refused, s)
  up e := e.host == host
  grows := by
    intro r s
    split
    · have hindex := s.index_take (readRequest r)
      change s.index ≤ (s.take (readRequest r)).2.index
      omega
    · exact Nat.le_refl _
  silent := by
    intro e he hup r s q hasks
    have hhost : r.url.host ≠ some host := by
      rw [hasks.host]
      simpa using hup
    rw [if_neg hhost]
    exact ⟨.inl rfl, rfl⟩
  serves := by
    intro e he hup r s c hasks hc
    have hhost : r.url.host = some host := by
      rw [hasks.host]
      simpa using hup
    rw [if_pos hhost, readRequest_of_asks (hbase e he) hasks]
    refine ⟨_, rfl, fun hadmits hword => ⟨_, s.takes hadmits, ?_⟩⟩
    exact saidBy_response (s.takes hadmits)
      (Etcd.readable_of_takes (s.takes hadmits) s.bounded hword)

theorem Shelf.index_server_le {endpoints : List Http.Endpoint}
    {hbase : ∀ e ∈ endpoints, e.base = []} {host : String} (r : Http.Request) (s : Shelf) :
    (((server endpoints hbase host).respond r s).2.tree).index ≤ s.index + 1 := by
  simp only [server]
  split
  · have hindex := s.index_take (readRequest r)
    change (s.take (readRequest r)).2.index ≤ s.index + 1
    omega
  · exact Nat.le_succ _

/-! ### Two endpoints -/

def firstEndpoint : Http.Endpoint where
  scheme := "http"
  authority := "10.0.0.1:2379"
  base := []
  slashes := 0
  host := "10.0.0.1"
  port := some 2379
  web := .inl rfl
  plain := List.all_iff_forall_prop.mp (by decide)
  read := by decide +kernel
  named := nofun

/-- Another one, written with a slash at the end. -/
def secondEndpoint : Http.Endpoint where
  scheme := "http"
  authority := "10.0.0.2:2379"
  base := []
  slashes := 1
  host := "10.0.0.2"
  port := some 2379
  web := .inl rfl
  plain := List.all_iff_forall_prop.mp (by decide)
  read := by decide +kernel
  named := nofun

/-- A server of which only the second of two endpoints is up. -/
def secondUp : KeyServer [firstEndpoint, secondEndpoint] :=
  Shelf.server _ (by decide) "10.0.0.2"

end HostAgent.Store.Keys
