import HostAgent.Proofs.Store.KeyServer
import HostAgent.Proofs.Task.Run
import HostAgent.Store.Etcd

namespace HostAgent.Store.Etcd

/-!
# Calls on their way to a server of keys

Every call reaches the server as it was meant, with its key, its condition and its value, through
the first endpoint that is up.
-/

open Keys

/-! ## Requests -/

def query : Call → Query
  | .get key => ⟨.get, key, none, none⟩
  | .list dir => ⟨.get, dir, some [("sorted", "true")], none⟩
  | .set key value => ⟨.put, key, some [], some value⟩
  | .create key value => ⟨.put, key, some [("prevExist", "false")], some value⟩
  | .compareAndSet key value index =>
    ⟨.put, key, some [("prevIndex", toString index)], some value⟩
  | .delete key => ⟨.delete, key, none, none⟩

/-- The address of a key at an endpoint. -/
def keyUrl (e : Http.Endpoint) (l : List String) (query : Option String) : Http.Url :=
  { e.url (e.base ++ ("v2" :: "keys" :: l)) with query := query }

theorem isName_key {l : List String} (hl : ∀ s ∈ l, Http.IsName s) :
    ∀ s ∈ "v2" :: "keys" :: l, Http.IsName s := by
  intro s hs
  simp only [List.mem_cons] at hs
  rcases hs with rfl | rfl | hs
  · decide
  · decide
  · exact hl s hs

theorem isName_path (e : Http.Endpoint) {l : List String} (hl : ∀ s ∈ l, Http.IsName s) :
    ∀ s ∈ e.base ++ ("v2" :: "keys" :: l), Http.IsName s := by
  intro s hs
  exact (List.mem_append.mp hs).elim (e.named s) (isName_key hl s)

theorem address?_key (e : Http.Endpoint) {l : List String} (hl : ∀ s ∈ l, Http.IsName s) :
    Http.address? (Text.trimSlashes e.text ++ "/v2/keys" ++ (Http.Path.segments l).text) =
      .ok (keyUrl e l none) := by
  have htext : "/v2/keys" ++ (Http.Path.segments l).text =
      (Http.Path.segments ("v2" :: "keys" :: l)).text :=
    (Http.Endpoint.text_append ["v2", "keys"] l).symm
  rw [String.append_assoc, htext,
    e.address?_append (Http.isPath_text (List.cons_ne_nil _ _) (isName_key hl)),
    ← Http.Endpoint.text_append,
    e.address_text (List.append_ne_nil_of_right_ne_nil _ (List.cons_ne_nil _ _)) (isName_path e hl)]
  rfl

/-- An address is read as that of a key at an endpoint. -/
structure Addresses (e : Http.Endpoint) (u : Http.Url) (key : String) : Prop where
  scheme : u.scheme = e.scheme
  host : u.host = some e.host
  port : u.port = e.port
  path : Text.Percent.text u.path.text.toList =
    (Http.Path.segments e.base).text ++ "/v2/keys" ++ key
  query : u.query = none

theorem addresses_keyUrl (e : Http.Endpoint) {l : List String} (hl : ∀ s ∈ l, Http.IsName s) :
    Addresses e (keyUrl e l none) (Http.Path.segments l).text where
  scheme := rfl
  host := rfl
  port := rfl
  path := by
    have hplain : '%' ∉ (Http.Path.segments (e.base ++ ("v2" :: "keys" :: l))).text.toList :=
      Http.not_mem_text (isName_path e hl) (by decide) (by decide)
    change Text.Percent.text (Http.Path.segments (e.base ++ ("v2" :: "keys" :: l))).text.toList = _
    rw [Text.Percent.text_of_plain hplain, Http.Endpoint.text_append, String.append_assoc]
    exact congrArg _ (Http.Endpoint.text_append ["v2", "keys"] l)
  query := rfl

theorem form_value (method : Http.Method) (url : Http.Url) (value : String) :
    form ⟨method, url, some "application/x-www-form-urlencoded",
      Text.Utf8.encode ("value=" ++ Text.Percent.encodeForm value)⟩ = [("value", value)] := by
  have hname : "value=" = Text.Percent.encodeForm "value" ++ "=" := by decide
  rw [form, if_pos rfl, Text.Utf8.decodeLossy_encode, hname, Text.Percent.decodeForm_pair]

theorem addQuery_single {u : Http.Url} (hu : u.query = none) (name value : String) :
    u.addQuery [(name, value)] =
      { u with query := some (Text.Percent.encodeForm name ++ "=" ++
        Text.Percent.encodeForm value) } := by
  rw [Http.Url.addQuery, hu]
  simp

/-- The request of a query that is sent to an address. -/
def Query.requestAt (q : Query) (url : Http.Url) : Http.Request :=
  let url := match q.pairs with
    | some ps => url.addQuery ps
    | none => url
  match q.value with
  | some v =>
    ⟨q.method, url, some "application/x-www-form-urlencoded",
      Text.Utf8.encode ("value=" ++ Text.Percent.encodeForm v)⟩
  | none => ⟨q.method, url, none, []⟩

theorem request_of_address {q : Query} {endpoint : String} {url : Http.Url}
    (h : Http.address? (endpoint ++ "/v2/keys" ++ q.key) = .ok url) :
    q.request endpoint = .ok (q.requestAt url) := by
  rw [Query.request, h]
  rfl

namespace Addresses

variable {e : Http.Endpoint} {u : Http.Url} {key : String}

theorem asks (h : Addresses e u key) (method : Http.Method) (query contentType : Option String)
    (body : Http.Body) :
    Asks e ⟨method, { u with query := query }, contentType, body⟩
      ⟨method, key, Text.Percent.decodeForm (query.getD "").toList,
        form ⟨method, { u with query := query }, contentType, body⟩⟩ where
  scheme := h.scheme
  host := h.host
  port := h.port
  method := rfl
  path := h.path
  query := rfl
  form := rfl

theorem asks_plain (h : Addresses e u key) (method : Http.Method) :
    Asks e ⟨method, u, none, []⟩ ⟨method, key, [], []⟩ := by
  have hu : { u with query := none } = u := by rw [← h.query]
  have hasks := h.asks method none none []
  rwa [hu] at hasks

/-- One pair at most is put into the query of an address, and read there as it was. -/
theorem addQuery (h : Addresses e u key) {pairs : List (String × String)}
    (hpairs : pairs = [] ∨ ∃ name value, pairs = [(name, value)]) :
    ∃ q, u.addQuery pairs = { u with query := q } ∧
      Text.Percent.decodeForm (q.getD "").toList = pairs := by
  rcases hpairs with rfl | ⟨name, value, rfl⟩
  · refine ⟨none, ?_, rfl⟩
    rw [Http.Url.addQuery, h.query]
    rfl
  · exact ⟨_, addQuery_single h.query name value, Text.Percent.decodeForm_pair name value⟩

theorem asks_list (h : Addresses e u key) :
    Asks e ((Etcd.query (.list key)).requestAt u) (asked (.list key)) := by
  change Asks e ⟨.get, u.addQuery [("sorted", "true")], none, []⟩ _
  obtain ⟨q, hq, hpairs⟩ := h.addQuery (.inr ⟨"sorted", "true", rfl⟩)
  have hasks := h.asks .get q none []
  rw [hpairs] at hasks
  rw [hq]
  exact hasks

theorem asks_write (h : Addresses e u key) (value : String) {pairs : List (String × String)}
    (hpairs : pairs = [] ∨ ∃ name value, pairs = [(name, value)]) :
    Asks e (Query.requestAt ⟨.put, key, some pairs, some value⟩ u)
      ⟨.put, key, pairs, [("value", value)]⟩ := by
  change Asks e ⟨.put, u.addQuery pairs, some "application/x-www-form-urlencoded",
    Text.Utf8.encode ("value=" ++ Text.Percent.encodeForm value)⟩ _
  obtain ⟨q, hq, hdecoded⟩ := h.addQuery hpairs
  have hasks := h.asks .put q (some "application/x-www-form-urlencoded")
    (Text.Utf8.encode ("value=" ++ Text.Percent.encodeForm value))
  rw [hdecoded, form_value] at hasks
  rwa [hq]

theorem asks_query {c : Call} (h : Addresses e u c.key) :
    Asks e ((Etcd.query c).requestAt u) (asked c) := by
  cases c with
  | get key => exact h.asks_plain .get
  | list dir => exact h.asks_list
  | set key value => exact h.asks_write value (.inl rfl)
  | create key value => exact h.asks_write value (.inr ⟨_, _, rfl⟩)
  | compareAndSet key value index => exact h.asks_write value (.inr ⟨_, _, rfl⟩)
  | delete key => exact h.asks_plain .delete

end Addresses

theorem query_key (c : Call) : (query c).key = c.key := by
  cases c <;> rfl

/-- The request for a call asks for it at the endpoint that it is sent to. -/
theorem exists_request (e : Http.Endpoint) (c : Call) (hc : IsKey c.key) :
    ∃ r, (query c).request (Text.trimSlashes e.text) = .ok r ∧ Asks e r (asked c) := by
  obtain ⟨l, -, hnames, hkey⟩ := hc
  have hl : ∀ s ∈ l, Http.IsName s := fun s hs => (hnames s hs).1
  have haddress := address?_key e hl
  have haddresses := addresses_keyUrl e hl
  rw [← hkey] at haddresses
  rw [← hkey, ← query_key] at haddress
  exact ⟨_, request_of_address haddress, haddresses.asks_query⟩

/-! ## Through the endpoints -/

theorem sendFrom_cons {q : Query} {endpoint : String} {rest : List String}
    {last : Option Http.Failure} {r : Http.Request} (hr : q.request endpoint = .ok r) :
    (sendFrom q (endpoint :: rest) last).run = .ask r fun
      | .answered response => .done (.ok response)
      | .closed => .done (.error (.http (.sending r.url.text)))
      | .refused | .timedOut => (sendFrom q rest (some (.sending r.url.text))).run := by
  rw [sendFrom, hr]
  refine congrArg (Task.ask (I := Http.interface) r) (funext fun o => ?_)
  cases o <;> rfl

variable {endpoints : List Http.Endpoint} {K : KeyServer endpoints} {c : Call}

/-- A call came to a response of the server, and what was done on the way has changed nothing. -/
def Reaches (K : KeyServer endpoints) (c : Call) (s : K.State) (response : Http.Response)
    (s' : K.State) : Prop :=
  ∃ e ∈ endpoints, K.up e = true ∧ ∃ r s₁, Asks e r (asked c) ∧ K.tree s₁ = K.tree s ∧
    K.respond r s₁ = (.answered response, s')

theorem sendFrom_run (hc : IsKey c.key) {es : List Http.Endpoint} (hes : ∀ e ∈ es, e ∈ endpoints)
    (hup : ∃ e ∈ es, K.up e = true) (last : Option Http.Failure) (s : K.State) :
    ∃ response s', (sendFrom (query c) (es.map fun e => Text.trimSlashes e.text) last).run.run
        K.respond s = (.ok response, s') ∧ Reaches K c s response s' := by
  induction es generalizing last s with
  | nil =>
    obtain ⟨e, he, -⟩ := hup
    cases he
  | cons e es ih =>
    have he := hes e List.mem_cons_self
    obtain ⟨r, hr, hasks⟩ := exists_request e c hc
    rw [List.map_cons, sendFrom_cons hr, Task.run_ask]
    obtain ⟨⟨o, s₁⟩, hrespond⟩ : ∃ p, K.respond r s = p := ⟨_, rfl⟩
    cases hupe : K.up e with
    | true =>
      obtain ⟨response, hanswered, -⟩ := K.serves e he hupe r s c hasks hc
      rw [hrespond] at hanswered ⊢
      obtain rfl : o = .answered response := hanswered
      exact ⟨response, s₁, rfl, e, he, hupe, r, s, hasks, rfl, hrespond⟩
    | false =>
      obtain ⟨hdown, htree⟩ := K.silent e he hupe r s _ hasks
      rw [hrespond] at hdown htree ⊢
      have hrest : ∃ e ∈ es, K.up e = true := by
        obtain ⟨e', he', hup'⟩ := hup
        rcases List.mem_cons.mp he' with rfl | he'
        · rw [hupe] at hup'
          cases hup'
        · exact ⟨e', he', hup'⟩
      obtain ⟨response, s', hrun, e', he', hup', r', s₂, hasks', htree', hresp⟩ :=
        ih (fun e he => hes e (List.mem_cons_of_mem _ he)) hrest (some (.sending r.url.text)) s₁
      refine ⟨response, s', ?_, e', he', hup', r', s₂, hasks', htree'.trans htree, hresp⟩
      rcases hdown with hdown | hdown <;>
      · obtain rfl := hdown
        exact hrun

/-- The endpoints of a server as a cluster that can be asked. -/
def clusterOf (endpoints : List Http.Endpoint) : Cluster :=
  .ofEndpoints (endpoints.map Http.Endpoint.text)

theorem send_run (hc : IsKey c.key) (hup : ∃ e ∈ endpoints, K.up e = true) (s : K.State) :
    ∃ response s', (send (clusterOf endpoints) (query c)).run.run K.respond s =
      (.ok response, s') ∧ Reaches K c s response s' := by
  rw [send, clusterOf, Cluster.ofEndpoints, List.map_map]
  exact sendFrom_run hc (fun _ he => he) hup none s

end HostAgent.Store.Etcd
