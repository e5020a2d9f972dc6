import HostAgent.Proofs.Container.DaemonServer
import HostAgent.Proofs.Text.Digits

namespace HostAgent.Container.Daemon

/-!
# Requests to a daemon

Every call on the engine behind a socket is one request, whatever it is answered, if the address
that the client makes for it is not too long. A daemon reads the request as the command that the
call is.
-/

variable {α : Type} {cl : Client} {socket id name : String}

/-! ## Targets -/

theorem ne_of_inPath {c : Char} (h : inPath c = true) : c ≠ '#' ∧ c ≠ '?' := by
  constructor <;> rintro rfl <;> cases h

theorem ne_of_inQuery {c : Char} (h : inQuery c = true) : c ≠ '#' := by
  rintro rfl
  cases h

/-- How long the address is that is made of a path. -/
def addressLength (socket path : String) : Nat :=
  addressFrame + 2 * (Text.Utf8.encode socket).length + (Text.Utf8.encode path).length

theorem target?_of_front {path : String} (hpath : ∀ c ∈ path.toList, inPath c = true)
    (hlength : addressLength socket path ≤ maxAddress) : target? socket path = some path := by
  have hsent : path.toList.takeWhile (· != '#') = path.toList :=
    List.takeWhile_eq_self_iff.mpr fun c hc => by simpa using (ne_of_inPath (hpath c hc)).1
  have hspan : path.toList.span (· != '?') = (path.toList, []) :=
    Text.span_of_forall fun c hc => by simpa using (ne_of_inPath (hpath c hc)).2
  have hfront : path.toList.all inPath = true := List.all_eq_true.mpr hpath
  simp only [target?, hsent, hspan]
  rw [if_pos ⟨hlength, hfront, rfl⟩, String.ofList_toList]

theorem target?_of_query {front pairs : String} (hfront : ∀ c ∈ front.toList, inPath c = true)
    (hpairs : ∀ c ∈ pairs.toList, inQuery c = true)
    (hlength : addressLength socket (front ++ "?" ++ pairs) ≤ maxAddress) :
    target? socket (front ++ "?" ++ pairs) = some (front ++ "?" ++ pairs) := by
  have hlist : (front ++ "?" ++ pairs).toList = front.toList ++ '?' :: pairs.toList := by simp
  have hsent : (front ++ "?" ++ pairs).toList.takeWhile (· != '#') =
      front.toList ++ '?' :: pairs.toList := by
    rw [hlist]
    refine List.takeWhile_eq_self_iff.mpr fun c hc => ?_
    rcases List.mem_append.mp hc with hc | hc
    · simpa using (ne_of_inPath (hfront c hc)).1
    · rcases List.mem_cons.mp hc with rfl | hc
      · rfl
      · simpa using ne_of_inQuery (hpairs c hc)
  have hspan : (front.toList ++ '?' :: pairs.toList).span (· != '?') =
      (front.toList, '?' :: pairs.toList) :=
    Text.span_append_cons (fun c hc => by simpa using (ne_of_inPath (hfront c hc)).2) rfl
  simp only [target?, hsent, hspan]
  rw [if_pos ⟨hlength, List.all_eq_true.mpr hfront, List.all_eq_true.mpr hpairs⟩, ← hlist,
    String.ofList_toList]

/-! ## Calls -/

def method : Call → Http.Method
  | .ping | .inspect _ => .get
  | .create _ | .start _ | .stop _ _ => .post
  | .remove _ _ => .delete

def path : Call → String
  | .ping => "/containers/json"
  | .create spec => "/containers/create?name=" ++ Text.Percent.encodeName spec.name
  | .start id => "/containers/" ++ id ++ "/start"
  | .stop id grace => "/containers/" ++ id ++ s!"/stop?t={grace.wholeSeconds}"
  | .remove id volumes => "/containers/" ++ id ++ s!"?v={volumes}"
  | .inspect id => "/containers/" ++ id ++ "/json"

def content : Call → Option Json
  | .create spec => some (createBody spec)
  | _ => none

def requestOf (method : Http.Method) (target : String) (body : Option Json) : Request :=
  ⟨method, target, body.map fun _ => "application/json",
    (body.map fun j => Text.Utf8.encode j.text).getD []⟩

/-- What came back for a request. -/
def received : Outcome → Except Error Http.Response
  | .unconnected e => .error (.http (.connecting e))
  | .closed => .error (.http .closed)
  | .answered r => .ok r

def settled (r : Http.Response) (id : String) : Except Error Unit :=
  if r.isSuccess then .ok () else .error (apiError id r)

/-- A response that nothing had to be changed is as good as a success. -/
def settledOrSo (r : Http.Response) (id : String) : Except Error Unit :=
  if r.isSuccess || r.status == notModified then .ok () else .error (apiError id r)

def decoded (d : Json.Decoder α) (r : Http.Response) (id : String) : Except Error α :=
  if r.isSuccess then (d.ofInput (Text.Utf8.symbols r.body)).mapError .json
  else .error (apiError id r)

/-- What a call comes to by what came back. -/
def conclude : (c : Call) → Except Error Http.Response → c.Answer
  | .ping, x => x.bind fun r => (decoded (.list .value) r "").map fun _ => ()
  | .create _, x => x.bind fun r => decoded createdId r ""
  | .start id, x | .stop id _, x => x.bind fun r => settledOrSo r id
  | .remove id _, x => x.bind fun r => settled r id
  | .inspect id, x => x.bind fun r => decoded status r id

theorem result_send {f : Http.Response → Op α} {g : Http.Response → Except Error α}
    {m : Http.Method} {p target : String} {body : Option Json}
    (htarget : target? cl.socket (version ++ p) = some target)
    (hf : ∀ r, (f r).run = .done ((g r).mapError .error)) :
    result (send cl m p body >>= f) =
      .ask (I := interface) (requestOf m target body) fun o =>
        .done (some ((received o).bind g)) := by
  unfold send
  rw [htarget]
  refine congrArg (Task.ask (I := interface) _) (funext fun o => ?_)
  cases o with
  | unconnected e => rfl
  | closed => rfl
  | answered r =>
    change Task.bind ((f r).run) _ = _
    rw [hf]
    cases hg : g r with
    | ok a => simp [received, Except.bind, hg, Except.mapError]
    | error e => simp [received, Except.bind, hg, Except.mapError]

theorem result_send_of_none {f : Http.Response → Op α} {m : Http.Method} {p : String}
    {body : Option Json} (htarget : target? cl.socket (version ++ p) = none) :
    result (send cl m p body >>= f) = .done none := by
  unfold send
  rw [htarget]
  rfl

/-- A call whose path makes no request ends the client. -/
theorem answer_of_none (c : Call) (htarget : target? cl.socket (version ++ path c) = none) :
    answer cl c = .done none := by
  cases c with
  | ping | create spec | start id | stop id grace | remove id volumes | inspect id =>
    exact result_send_of_none htarget

theorem decoded_run (d : Json.Decoder α) (r : Http.Response) (id : String) :
    (if r.isSuccess then decode d r else throw (.error (apiError id r)) : Op α).run =
      .done ((decoded d r id).mapError .error) := by
  rw [decoded]
  split
  · rw [decode]
    cases d.ofInput (Text.Utf8.symbols r.body) <;> rfl
  · rfl

/-- A call is one request, and its result depends on what came back for it alone. -/
theorem answer_eq {target : String} (c : Call)
    (htarget : target? cl.socket (version ++ path c) = some target) :
    answer cl c = .ask (I := interface) (requestOf (method c) target (content c)) fun o =>
      .done (some (conclude c (received o))) := by
  cases c with
  | ping =>
    refine result_send htarget fun r => ?_
    rw [decoded]
    split
    · change Task.bind (decode (.list .value) r).run _ = _
      rw [decode]
      cases (Json.Decoder.list Json.Decoder.value).ofInput (Text.Utf8.symbols r.body) <;> rfl
    · rfl
  | create spec => exact result_send htarget fun r => decoded_run createdId r ""
  | start id | stop id grace =>
    refine result_send htarget fun r => ?_
    rw [settledOrSo]
    split <;> rfl
  | remove id volumes =>
    refine result_send htarget fun r => ?_
    rw [settled]
    split <;> rfl
  | inspect id => exact result_send htarget fun r => decoded_run status r id

/-! ## Addresses -/

theorem inPath_of_unreserved {c : Char} (h : Text.Percent.isUnreserved c = true) :
    inPath c = true := by
  have hc := Text.Percent.toNat_of_unreserved h
  simp only [inPath, Bool.or_eq_true, Bool.and_eq_true, beq_iff_eq, decide_eq_true_eq]
  omega

theorem inQuery_of_unreserved {c : Char} (h : Text.Percent.isUnreserved c = true) :
    inQuery c = true := by
  have hc := Text.Percent.toNat_of_unreserved h
  simp only [inQuery, Bool.or_eq_true, Bool.and_eq_true, beq_iff_eq, decide_eq_true_eq]
  omega

theorem inQuery_of_mem_encodeName {c : Char} (h : c ∈ (Text.Percent.encodeName name).toList) :
    inQuery c = true := by
  rcases (Text.Percent.isEscaped_encodeName name).mem h with rfl | ⟨n, hn, rfl⟩ | hc
  · decide
  · have hdigits : ∀ n < 16, inQuery (Text.Percent.hexDigit n) = true := by decide
    exact hdigits n hn
  · exact inQuery_of_unreserved hc

theorem IsId.unreserved (h : IsId id) {c : Char} (hc : c ∈ id.toList) :
    Text.Percent.isUnreserved c = true := by
  rw [Text.Percent.isUnreserved, h.alphanum c hc]
  rfl

theorem IsId.in_path (h : IsId id) : ∀ c ∈ id.toList, inPath c = true :=
  fun _ hc => inPath_of_unreserved (h.unreserved hc)

theorem IsId.not_slash (h : IsId id) : ∀ c ∈ id.toList, (c == '/') = false := by
  intro c hc
  rw [beq_eq_false_iff_ne]
  rintro rfl
  cases h.alphanum _ hc

theorem inQuery_of_mem_toString {n : Nat} {c : Char} (h : c ∈ (toString n).toList) :
    inQuery c = true := by
  have hdigit : c.isDigit = true := by
    apply Text.isDigit_of_mem_toDigits (n := n)
    simpa [Nat.repr] using h
  apply inQuery_of_unreserved
  rw [Text.Percent.isUnreserved, Char.isAlphanum, hdigit]
  simp

/-- The path of a call up to its query. -/
def front : Call → String
  | .ping => "/v1.24/containers/json"
  | .create _ => "/v1.24/containers/create"
  | .start id => "/v1.24/containers/" ++ id ++ "/start"
  | .stop id _ => "/v1.24/containers/" ++ id ++ "/stop"
  | .remove id _ => "/v1.24/containers/" ++ id
  | .inspect id => "/v1.24/containers/" ++ id ++ "/json"

/-- The query of a call. -/
def pairs? : Call → Option String
  | .create spec => some ("name=" ++ Text.Percent.encodeName spec.name)
  | .stop _ grace => some ("t=" ++ toString grace.wholeSeconds)
  | .remove _ volumes => some ("v=" ++ toString volumes)
  | .ping | .start _ | .inspect _ => none

def withPairs (front : String) : Option String → String
  | none => front
  | some pairs => front ++ "?" ++ pairs

theorem withPairs_some (f p : String) : withPairs f (some p) = f ++ "?" ++ p := rfl

theorem version_path (c : Call) : version ++ path c = withPairs (front c) (pairs? c) := by
  have hversion : version ++ "/containers/" = "/v1.24/containers/" := by decide
  have hbehind : ∀ id end' : String,
      version ++ ("/containers/" ++ id ++ end') = "/v1.24/containers/" ++ id ++ end' := by
    intro id end'
    rw [← hversion, String.append_assoc, String.append_assoc, String.append_assoc]
  cases c with
  | ping => decide
  | create spec =>
    have hpath : path (.create spec) =
      "/containers/create?name=" ++ Text.Percent.encodeName spec.name := rfl
    have hpairs : pairs? (.create spec) =
      some ("name=" ++ Text.Percent.encodeName spec.name) := rfl
    have hfront : version ++ "/containers/create?name=" =
      front (.create default) ++ "?" ++ "name=" := by decide
    rw [hpath, hpairs, withPairs_some, ← String.append_assoc, hfront, String.append_assoc]
    rfl
  | start id => exact hbehind id "/start"
  | inspect id => exact hbehind id "/json"
  | stop id grace =>
    have hstop : toString "/stop?t=" = "/stop" ++ ("?" ++ "t=") := by decide
    have hpairs : pairs? (.stop id grace) = some ("t=" ++ toString grace.wholeSeconds) := rfl
    have hfront : front (.stop id grace) = "/v1.24/containers/" ++ id ++ "/stop" := rfl
    refine (hbehind id (toString "/stop?t=" ++ toString grace.wholeSeconds)).trans ?_
    rw [hpairs, hfront, withPairs_some, hstop]
    simp only [String.append_assoc]
  | remove id volumes =>
    have hremove : toString "?v=" = "?" ++ "v=" := by decide
    have hpairs : pairs? (.remove id volumes) = some ("v=" ++ toString volumes) := rfl
    have hfront : front (.remove id volumes) = "/v1.24/containers/" ++ id := rfl
    refine (hbehind id (toString "?v=" ++ toString volumes)).trans ?_
    rw [hpairs, hfront, withPairs_some, hremove]
    simp only [String.append_assoc]

theorem inPath_front {c : Call}
    (hid : ∀ id, c.id? = some id → ∀ d ∈ id.toList, inPath d = true) :
    ∀ d ∈ (front c).toList, inPath d = true := by
  have hwith : ∀ id end' : String, (∀ d ∈ id.toList, inPath d = true) →
      (∀ d ∈ end'.toList, inPath d = true) →
      ∀ d ∈ ("/v1.24/containers/" ++ id ++ end').toList, inPath d = true := by
    intro id end' hid hend d hd
    rw [String.toList_append, String.toList_append, List.mem_append, List.mem_append] at hd
    rcases hd with (hd | hd) | hd
    · exact List.all_eq_true.mp (by decide) d hd
    · exact hid d hd
    · exact hend d hd
  cases c with
  | ping => exact List.all_eq_true.mp (by decide)
  | create spec =>
    have hcreate : ∀ d ∈ "/v1.24/containers/create".toList, inPath d = true :=
      List.all_eq_true.mp (by decide)
    exact hcreate
  | start id => exact hwith id "/start" (hid id rfl) (List.all_eq_true.mp (by decide))
  | stop id grace => exact hwith id "/stop" (hid id rfl) (List.all_eq_true.mp (by decide))
  | remove id volumes =>
    have hfront := hwith id "" (hid id rfl) (List.all_eq_true.mp (by decide))
    rwa [String.append_empty] at hfront
  | inspect id => exact hwith id "/json" (hid id rfl) (List.all_eq_true.mp (by decide))

theorem inQuery_pairs {c : Call} {p : String} (hp : pairs? c = some p) :
    ∀ d ∈ p.toList, inQuery d = true := by
  have hwith : ∀ start p : String, (∀ d ∈ start.toList, inQuery d = true) →
      (∀ d ∈ p.toList, inQuery d = true) → ∀ d ∈ (start ++ p).toList, inQuery d = true := by
    intro start p hstart hp d hd
    rw [String.toList_append, List.mem_append] at hd
    exact hd.elim (hstart d) (hp d)
  cases c with
  | create spec =>
    cases hp
    exact hwith _ _ (List.all_eq_true.mp (by decide)) fun d => inQuery_of_mem_encodeName
  | stop id grace =>
    cases hp
    exact hwith _ _ (List.all_eq_true.mp (by decide)) fun d => inQuery_of_mem_toString
  | remove id volumes =>
    cases hp
    exact hwith _ _ (List.all_eq_true.mp (by decide))
      (List.all_eq_true.mp (by cases volumes <;> decide))
  | ping | start id | inspect id => cases hp

/-- The address of a call is not too long. -/
def Client.Fits (cl : Client) (c : Call) : Prop :=
  addressLength cl.socket (version ++ path c) ≤ maxAddress

instance (cl : Client) (c : Call) : Decidable (cl.Fits c) :=
  Nat.decLe (addressLength cl.socket (version ++ path c)) maxAddress

/-- Sockets have paths of one hundred and eight octets at most. -/
def maxSocket : Nat := 108

/-- Identifiers have sixty-four characters at most. -/
def maxId : Nat := 64

/-- A call on a container of an identifier that is not longer than usual fits. -/
theorem Client.fits_of_id {c : Call} (hsocket : (Text.Utf8.encode cl.socket).length ≤ maxSocket)
    (hc : c.id? = some id) (hid : id.toList.length ≤ maxId)
    (hgrace : ∀ grace, c = .stop id grace → grace.wholeSeconds < 2 ^ 64) : cl.Fits c := by
  have hbehind : ∀ end' : String, end'.toList.length ≤ 28 →
      (version ++ ("/containers/" ++ id ++ end')).toList.length ≤ 110 := by
    intro end' hend
    have hversion : version.toList.length = 6 := by decide
    have hcontainers : "/containers/".toList.length = 12 := by decide
    rw [maxId] at hid
    simp only [String.toList_append, List.length_append, hversion, hcontainers]
    omega
  have hlength : (version ++ path c).toList.length ≤ 110 := by
    cases c with
    | ping | create spec => cases hc
    | start id =>
      cases hc
      exact hbehind "/start" (by decide)
    | inspect id =>
      cases hc
      exact hbehind "/json" (by decide)
    | stop id grace =>
      cases hc
      refine hbehind (toString "/stop?t=" ++ toString grace.wholeSeconds) ?_
      have hstop : (toString "/stop?t=").toList.length = 8 := by decide
      have hdigits := Text.length_toString_le (k := 20) (by decide)
        (Nat.lt_trans (hgrace grace rfl) (by decide))
      rw [String.toList_append, List.length_append, hstop]
      omega
    | remove id volumes =>
      cases hc
      exact hbehind (toString "?v=" ++ toString volumes) (by cases volumes <;> decide)
  have hbytes := Text.Utf8.length_encode_le (version ++ path c)
  rw [maxSocket] at hsocket
  have hframe : addressFrame = 9 := by decide
  rw [Client.Fits, addressLength, hframe, maxAddress]
  omega

theorem target?_of_long {path : String} (h : maxAddress < addressLength socket path) :
    target? socket path = none := by
  have hlength : ¬ addressLength socket path ≤ maxAddress := Nat.not_le.mpr h
  exact if_neg fun hall => hlength hall.1

/-- A call that does not fit ends the client before anything is sent. -/
theorem answer_of_not_fits {c : Call} (h : ¬ cl.Fits c) : answer cl c = .done none :=
  answer_of_none c (target?_of_long (Nat.not_le.mp h))

theorem target?_call {c : Call}
    (hid : ∀ id, c.id? = some id → ∀ d ∈ id.toList, inPath d = true) (hfits : cl.Fits c) :
    target? cl.socket (version ++ path c) = some (version ++ path c) := by
  rw [Client.Fits, version_path] at hfits
  rw [version_path]
  cases hpairs : pairs? c with
  | none =>
    rw [hpairs] at hfits
    exact target?_of_front (inPath_front hid) hfits
  | some p =>
    rw [hpairs] at hfits
    exact target?_of_query (inPath_front hid) (inQuery_pairs hpairs) hfits

/-! ## Commands -/

def commandOf? : Call → Option Command
  | .ping => none
  | .create spec => some (.create spec.name)
  | .start id => some (.start id)
  | .stop id _ => some (.stop id)
  | .remove id _ => some (.remove id false)
  | .inspect id => some (.inspect id)

section Reading

variable {f : String} {m : Http.Method} {q : Option String} {body : Option Json}

theorem parts_requestOf (hf : ∀ c ∈ f.toList, inPath c = true) :
    parts (requestOf m (withPairs f q) body) = Text.splitAt '/' f := by
  have hmark : ∀ c ∈ f.toList, (c != '?') = true := fun c hc => by
    simpa using (ne_of_inPath (hf c hc)).2
  have hfront : (withPairs f q).toList.takeWhile (· != '?') = f.toList := by
    cases q with
    | none => exact List.takeWhile_eq_self_iff.mpr hmark
    | some p =>
      rw [withPairs, String.toList_append, String.toList_append, List.append_assoc,
        List.takeWhile_append_of_pos hmark]
      exact List.append_nil _
  rw [parts, requestOf, hfront, String.ofList_toList]

theorem query_requestOf (hf : ∀ c ∈ f.toList, inPath c = true) :
    query (requestOf m (withPairs f q) body) =
      Text.Percent.decodeForm (q.getD "").toList := by
  have hmark : ∀ c ∈ f.toList, (c != '?') = true := fun c hc => by
    simpa using (ne_of_inPath (hf c hc)).2
  have hrest : ((withPairs f q).toList.dropWhile (· != '?')).drop 1 = (q.getD "").toList := by
    cases q with
    | none =>
      rw [withPairs, List.dropWhile_eq_nil_iff.mpr hmark]
      rfl
    | some p =>
      rw [withPairs, String.toList_append, String.toList_append, List.append_assoc,
        List.dropWhile_append_of_pos hmark]
      rfl
  rw [query, requestOf, hrest]

/-- What is behind the directory of containers is cut on its own. -/
theorem splitAt_containers {r w : List Char} {ws : List (List Char)}
    (h : Text.splitWhere (· == '/') r = w :: ws)
    (hf : f.toList = "/v1.24/containers/".toList ++ r) :
    Text.splitAt '/' f = ["", "v1.24", "containers"] ++ (w :: ws).map String.ofList := by
  have hlist : f.toList =
      [] ++ '/' :: ("v1.24".toList ++ '/' :: ("containers".toList ++ '/' :: r)) := hf
  have hword : ∀ s : String, ('/' ∉ s.toList) → ∀ c ∈ s.toList, (c == '/') = false := by
    intro s hs c hc
    rw [beq_eq_false_iff_ne]
    rintro rfl
    exact hs hc
  rw [Text.splitAt, hlist, Text.splitWhere_append (List.forall_mem_nil _) rfl,
    Text.splitWhere_append (hword _ (by decide)) rfl,
    Text.splitWhere_append (hword _ (by decide)) rfl, h]
  simp only [List.map_cons, String.ofList_toList]
  rfl

theorem command?_requestOf {l : List String} (hf : ∀ c ∈ f.toList, inPath c = true)
    (hparts : Text.splitAt '/' f = ["", "v1.24", "containers"] ++ l) :
    command? (requestOf m (withPairs f q) body) =
      commandFor m l (Text.Percent.decodeForm (q.getD "").toList) := by
  rw [command?, parts_requestOf hf, query_requestOf hf, hparts]
  rfl

end Reading

theorem splitAt_id (hid : IsId id) :
    Text.splitAt '/' ("/v1.24/containers/" ++ id) = ["", "v1.24", "containers"] ++ [id] := by
  have hsplit := Text.splitWhere_of_forall hid.not_slash
  rw [splitAt_containers hsplit String.toList_append, List.map_singleton, String.ofList_toList]

theorem splitAt_id_word (hid : IsId id) (word : String) {end' : String}
    (hend : end'.toList = '/' :: word.toList) (hword : ∀ c ∈ word.toList, (c == '/') = false) :
    Text.splitAt '/' ("/v1.24/containers/" ++ id ++ end') =
      ["", "v1.24", "containers"] ++ [id, word] := by
  have hsplit : Text.splitWhere (· == '/') (id.toList ++ '/' :: word.toList) =
      [id.toList, word.toList] := by
    rw [Text.splitWhere_append hid.not_slash rfl, Text.splitWhere_of_forall hword]
  have hlist : ("/v1.24/containers/" ++ id ++ end').toList =
      "/v1.24/containers/".toList ++ (id.toList ++ '/' :: word.toList) := by
    rw [String.toList_append, String.toList_append, hend, List.append_assoc]
  rw [splitAt_containers hsplit hlist, List.map_cons, List.map_singleton, String.ofList_toList,
    String.ofList_toList]

theorem splitAt_create :
    Text.splitAt '/' "/v1.24/containers/create" = ["", "v1.24", "containers"] ++ ["create"] := by
  have hsplit : Text.splitWhere (· == '/') "create".toList = ["create".toList] :=
    Text.splitWhere_of_forall (by simp)
  rw [splitAt_containers hsplit rfl, List.map_singleton, String.ofList_toList]

theorem query_name (name : String) :
    Text.Percent.decodeForm ("name=" ++ Text.Percent.encodeName name).toList =
      [("name", name)] := by
  have hlist : ("name=" ++ Text.Percent.encodeName name).toList =
      (Text.Percent.encodeForm "name").toList ++ '=' :: (Text.Percent.encodeName name).toList := by
    rw [String.toList_append]
    rfl
  have hmark : ∀ d ∈ (Text.Percent.encodeName name).toList, d ≠ '&' := by
    intro d hd
    rcases Text.Percent.isFormMark_of_mem_encodeName hd with rfl | hmark
    · decide
    · rintro rfl
      cases hmark
  have hname : ∀ d ∈ (Text.Percent.encodeForm "name").toList, d ≠ '&' ∧ d ≠ '=' := by
    change ∀ d ∈ "name".toList, d ≠ '&' ∧ d ≠ '='
    simp
  rw [hlist, Text.Percent.decodeForm_of_unmarked hname hmark, Text.Percent.formText_encodeForm,
    Text.Percent.formText_encodeName]

theorem query_volumes (volumes : Bool) :
    Text.Percent.decodeForm ("v=" ++ toString volumes).toList = [("v", toString volumes)] := by
  cases volumes
  · exact Text.Percent.decodeForm_pair "v" "false"
  · exact Text.Percent.decodeForm_pair "v" "true"

theorem id_of_commandOf {c : Call} {k : Command} (hk : commandOf? c = some k) : k.id? = c.id? := by
  cases c <;> cases hk <;> rfl

/-- A daemon reads the request of a call as the command that the call is. -/
theorem command?_call {c : Call} {k : Command} (hk : commandOf? c = some k)
    (hid : ∀ id, c.id? = some id → IsId id) :
    command? (requestOf (method c) (version ++ path c) (content c)) = some k := by
  have hfront := inPath_front fun id hc => (hid id hc).in_path
  rw [version_path]
  cases c with
  | ping => cases hk
  | create spec =>
    cases hk
    have hpairs : pairs? (.create spec) =
      some ("name=" ++ Text.Percent.encodeName spec.name) := rfl
    rw [command?_requestOf hfront splitAt_create, hpairs, Option.getD_some, query_name]
    rfl
  | start id =>
    cases hk
    have hend : "/start".toList = '/' :: "start".toList := by decide
    have hsplit := splitAt_id_word (hid id rfl) "start" hend (by simp)
    exact command?_requestOf hfront hsplit
  | stop id grace =>
    cases hk
    have hend : "/stop".toList = '/' :: "stop".toList := by decide
    have hsplit := splitAt_id_word (hid id rfl) "stop" hend (by simp)
    exact command?_requestOf hfront hsplit
  | inspect id =>
    cases hk
    have hend : "/json".toList = '/' :: "json".toList := by decide
    have hsplit := splitAt_id_word (hid id rfl) "json" hend (by simp)
    exact command?_requestOf hfront hsplit
  | remove id volumes =>
    cases hk
    have hpairs : pairs? (.remove id volumes) = some ("v=" ++ toString volumes) := rfl
    rw [command?_requestOf hfront (splitAt_id (hid id rfl)), hpairs, Option.getD_some,
      query_volumes]
    rfl

theorem asks_call {c : Call} {k : Command} (hk : commandOf? c = some k)
    (hid : ∀ id, c.id? = some id → IsId id) :
    Asks (requestOf (method c) (version ++ path c) (content c)) k where
  command := command?_call hk hid
  id := by
    rw [id_of_commandOf hk]
    exact hid
  body := by
    rintro name rfl
    cases c <;> cases hk
    next spec =>
      obtain ⟨m, hm⟩ : ∃ m, createBody spec = .object m := ⟨_, rfl⟩
      refine ⟨rfl, m, ?_⟩
      simp only [requestOf, content, Option.map_some, Option.getD_some, hm]

end HostAgent.Container.Daemon
