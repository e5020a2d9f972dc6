import HostAgent.Proofs.Http.Endpoint
import HostAgent.Proofs.Json.Decoding
import HostAgent.Proofs.Json.Text
import HostAgent.Proofs.Text.Form
import HostAgent.Store.Basic

namespace HostAgent.Store

/-!
# Servers of keys

What a server of the second version of the keys of etcd does, as far as its documentation says:
which request is which call, what a call comes to, and how that is said in an answer. The members
that an answer has besides, their order, the status of a success and the steps of the counter are
left open.
-/

/-! ## Keys -/

/-- Listings leave out what begins with this sign. -/
def Hidden (name : String) : Prop := name.toList.head? = some '_'

instance (name : String) : Decidable (Hidden name) := inferInstanceAs (Decidable (_ = _))

/-- A key is a path of names that are not hidden. -/
def IsKey (key : String) : Prop :=
  ∃ l : List String, l ≠ [] ∧ (∀ s ∈ l, Http.IsName s ∧ ¬ Hidden s) ∧
    key = (Http.Path.segments l).text

/-- A key stands below a directory, at any depth. -/
def Below (dir key : String) : Prop := (dir ++ "/").toList <+: key.toList

instance (dir key : String) : Decidable (Below dir key) :=
  inferInstanceAs (Decidable (_ <+: _))

namespace Keys

/-! ## Trees -/

inductive Content where
  | record (entry : Entry)
  | directory
  deriving DecidableEq

/-- What a server has stored, and its counter. -/
structure Tree where
  find : String → Option Content
  index : Nat

namespace Tree

/-- A record is written with the directories above it. -/
def write (t : Tree) (key value : String) (index : Nat) : Tree where
  find j :=
    if j = key then some (.record ⟨value, index⟩)
    else if Below j key then some .directory
    else t.find j
  index := index

def erase (t : Tree) (key : String) (index : Nat) : Tree where
  find j := if j = key then none else t.find j
  index := index

@[simp] theorem find_write (t : Tree) (key value : String) (index : Nat) (j : String) :
    (t.write key value index).find j =
      if j = key then some (.record ⟨value, index⟩)
      else if Below j key then some .directory
      else t.find j := rfl

@[simp] theorem find_erase (t : Tree) (key : String) (index : Nat) (j : String) :
    (t.erase key index).find j = if j = key then none else t.find j := rfl

/-- A list has what is directly below a directory, in the order of the keys. -/
structure Lists (t : Tree) (dir : String) (l : List (String × Content)) : Prop where
  ascending : Ascending l
  mem_iff : ∀ key c, (key, c) ∈ l ↔ t.find key = some c ∧
    ∃ name, key = dir ++ "/" ++ name ∧ name ≠ "" ∧ '/' ∉ name.toList ∧ ¬ Hidden name

/-- A call does not take a directory for a record, or a record for a directory. -/
def Admits (t : Tree) : Call → Prop
  | .list dir => ∀ e, t.find dir ≠ some (.record e)
  | .get key | .set key _ | .create key _ | .compareAndSet key _ _ | .delete key =>
    t.find key ≠ some .directory ∧ ∀ dir e, Below dir key → t.find dir ≠ some (.record e)

end Tree

/-! ## Answers -/

inductive Answer where
  | node (key : String) (entry : Entry)
  | directory (key : String) (nodes : List (String × Content))
  | done
  | fault (status code : Nat)

/-- What a call comes to, and what it leaves. The counter grows with every change. -/
inductive Takes (t : Tree) : Call → Answer → Tree → Prop
  | found {key e} (h : t.find key = some (.record e)) : Takes t (.get key) (.node key e) t
  | missing {key} (h : t.find key = none) : Takes t (.get key) (.fault 404 100) t
  | listed {dir l} (h : t.find dir = some .directory) (hl : t.Lists dir l) :
      Takes t (.list dir) (.directory dir l) t
  | unlisted {dir} (h : t.find dir = none) : Takes t (.list dir) (.fault 404 100) t
  | set {key value i} (hi : t.index < i) :
      Takes t (.set key value) (.node key ⟨value, i⟩) (t.write key value i)
  | created {key value i} (h : t.find key = none) (hi : t.index < i) :
      Takes t (.create key value) (.node key ⟨value, i⟩) (t.write key value i)
  | existing {key value e} (h : t.find key = some (.record e)) :
      Takes t (.create key value) (.fault 412 105) t
  | swapped {key value e i} (h : t.find key = some (.record e)) (hi : t.index < i) :
      Takes t (.compareAndSet key value e.index) (.node key ⟨value, i⟩) (t.write key value i)
  | stale {key value e index} (h : t.find key = some (.record e)) (hne : e.index ≠ index) :
      Takes t (.compareAndSet key value index) (.fault 412 101) t
  | gone {key value index} (h : t.find key = none) :
      Takes t (.compareAndSet key value index) (.fault 404 100) t
  | deleted {key e i} (h : t.find key = some (.record e)) (hi : t.index ≤ i) :
      Takes t (.delete key) .done (t.erase key i)
  | undeleted {key} (h : t.find key = none) : Takes t (.delete key) (.fault 404 100) t

/-! ## Requests -/

/-- What a server reads in a request. -/
structure Asked where
  method : Http.Method
  key : String
  query : List (String × String)
  form : List (String × String)
  deriving DecidableEq

/-- How a call is asked for. -/
def asked : Call → Asked
  | .get key => ⟨.get, key, [], []⟩
  | .list dir => ⟨.get, dir, [("sorted", "true")], []⟩
  | .set key value => ⟨.put, key, [], [("value", value)]⟩
  | .create key value => ⟨.put, key, [("prevExist", "false")], [("value", value)]⟩
  | .compareAndSet key value index =>
    ⟨.put, key, [("prevIndex", toString index)], [("value", value)]⟩
  | .delete key => ⟨.delete, key, [], []⟩

/-- The pairs of a body that is a form. -/
def form (r : Http.Request) : List (String × String) :=
  if r.contentType = some "application/x-www-form-urlencoded" then
    Text.Percent.decodeForm (Text.Utf8.decodeLossy r.body).toList
  else []

/-- A request reaches an endpoint and asks for something there, its escapes read. -/
structure Asks (e : Http.Endpoint) (r : Http.Request) (q : Asked) : Prop where
  scheme : r.url.scheme = e.scheme
  host : r.url.host = some e.host
  port : r.url.port = e.port
  method : r.method = q.method
  path : Text.Percent.text r.url.path.text.toList =
    (Http.Path.segments e.base).text ++ "/v2/keys" ++ q.key
  query : Text.Percent.decodeForm (r.url.query.getD "").toList = q.query
  form : form r = q.form

/-! ## Responses -/

def wordLimit : Nat := 2 ^ 64

/-- An index among members, if there is one, is a number of sixty-four bits. -/
def HasIndex (m : List (String × Json)) : Prop :=
  ∀ j, m.lookup "modifiedIndex" = some j → ∃ i < wordLimit, j = .number (.integer (i : Nat))

/-- A value says a node below another one. -/
inductive SaysNode : Json → String × Content → Prop
  | record {m key e} (distinct : (m.map Prod.fst).Nodup)
      (hkey : m.lookup "key" = some (.string key))
      (hvalue : m.lookup "value" = some (.string e.value))
      (hindex : m.lookup "modifiedIndex" = some (.number (.integer e.index)))
      (hdir : m.lookup "dir" = none ∨ m.lookup "dir" = some (.bool false))
      (hnodes : m.lookup "nodes" = none) :
      SaysNode (.object m) (key, .record e)
  | directory {m key} (distinct : (m.map Prod.fst).Nodup)
      (hkey : m.lookup "key" = some (.string key)) (hvalue : m.lookup "value" = none)
      (hindex : HasIndex m) (hdir : m.lookup "dir" = some (.bool true))
      (hnodes : m.lookup "nodes" = none) :
      SaysNode (.object m) (key, .directory)

/-- Members say a directory with what is in it. Of an empty one the nodes may be left out. -/
structure SaysDirectory (m : List (String × Json)) (key : String)
    (nodes : List (String × Content)) : Prop where
  distinct : (m.map Prod.fst).Nodup
  key : m.lookup "key" = some (.string key)
  value : m.lookup "value" = none
  index : HasIndex m
  dir : m.lookup "dir" = some (.bool true)
  nodes : m.lookup "nodes" = none ∧ nodes = [] ∨
    ∃ items, m.lookup "nodes" = some (.array items) ∧ List.Forall₂ SaysNode items nodes

/-- The body of a response spells an object of integers, texts and the like. -/
structure HasBody (r : Http.Response) (m : List (String × Json)) : Prop where
  body : ∃ b t b' : List Char, Json.Blank b ∧ Json.Spells (.object m) t ∧ Json.Blank b' ∧
    r.body = Text.Utf8.encode (String.ofList (b ++ t ++ b'))
  distinct : (m.map Prod.fst).Nodup
  integral : Json.Integral (.object m)
  shallow : Json.depth (.object m) < 128

theorem HasBody.of_text {status : Nat} {m : List (String × Json)}
    (hdistinct : (m.map Prod.fst).Nodup) (hintegral : Json.Integral (.object m))
    (hshallow : Json.depth (.object m) < 128) :
    HasBody ⟨status, Text.Utf8.encode (Json.object m).text⟩ m where
  body := ⟨[], Json.print (.object m), [], Json.blank_nil, Json.spells_print _ hintegral.regained,
    Json.blank_nil, by simp [Json.text]⟩
  distinct := hdistinct
  integral := hintegral
  shallow := hshallow

/-- A response says an answer. -/
def Answer.SaidBy (r : Http.Response) : Answer → Prop
  | .node key e => r.isSuccess = true ∧ ∃ m node, HasBody r m ∧ m.lookup "node" = some node ∧
      SaysNode node (key, .record e)
  | .directory key nodes => r.isSuccess = true ∧ ∃ m members, HasBody r m ∧
      m.lookup "node" = some (.object members) ∧ SaysDirectory members key nodes
  | .done => r.isSuccess = true
  | .fault status code => r.status = status ∧ ∃ m message, HasBody r m ∧
      m.lookup "errorCode" = some (.number (.integer code)) ∧
      m.lookup "message" = some (.string message)

end Keys

open Keys

/-- Endpoints that each are down or in front of one server. Of what is down it is only known that it
takes no connection or no time to answer. -/
structure KeyServer (endpoints : List Http.Endpoint) where
  State : Type
  tree : State → Tree
  respond : Http.Request → State → Http.Outcome × State
  up : Http.Endpoint → Bool
  grows : ∀ r s, (tree s).index ≤ (tree (respond r s).2).index
  silent : ∀ e ∈ endpoints, up e = false → ∀ r s q, Asks e r q →
    ((respond r s).1 = .refused ∨ (respond r s).1 = .timedOut) ∧ tree (respond r s).2 = tree s
  serves : ∀ e ∈ endpoints, up e = true → ∀ r s c, Asks e r (asked c) → IsKey c.key →
    ∃ response, (respond r s).1 = .answered response ∧
      ((tree s).Admits c → (tree (respond r s).2).index < wordLimit →
        ∃ a, Takes (tree s) c a (tree (respond r s).2) ∧ a.SaidBy response)

end HostAgent.Store
