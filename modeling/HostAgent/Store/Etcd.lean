import HostAgent.Http.Exchange
import HostAgent.Json.Decoder
import HostAgent.Store.Basic
import HostAgent.Text.Blank

namespace HostAgent.Store

/-!
# A store behind HTTP

The calls on a store as exchanges with an etcd cluster, version 2 of its keys. A key is a path
below `/v2/keys`, a condition is a pair in the query, and a value is a form. Endpoints are asked in
their order until one takes the connection and answers in time.
-/

namespace Etcd

open Json (Decoder Fields)

inductive Node where
  | mk (key : String) (value : Option String) (dir : Bool) (nodes : List Node) (index : Nat)
  deriving Repr

namespace Node

def key : Node → String
  | mk key _ _ _ _ => key

def value : Node → Option String
  | mk _ value _ _ _ => value

def dir : Node → Bool
  | mk _ _ dir _ _ => dir

def nodes : Node → List Node
  | mk _ _ _ nodes _ => nodes

def index : Node → Nat
  | mk _ _ _ _ index => index

/-- Decodes a node down to a depth; no text is nested deeper than a hundred and twenty-eight. -/
def decoder : Nat → Decoder Node
  | 0 => fun _ _ => .error (.ofMalformed .tooDeep)
  | n + 1 => Json.record "struct Node" <|
    Node.mk <$> .required "key" .string <*>
      .optional "value" (.option .string) none <*>
      .optional "dir" .bool false <*>
      .optional "nodes" (.list (decoder n)) [] <*>
      .optional "modifiedIndex" (Decoder.word.map UInt64.toNat) 0

end Node

/-- The answer to a call that was carried out. -/
def nodeOf : Decoder Node :=
  Json.record "struct KeysResponse" (.required "node" (Node.decoder 128))

structure Fault where
  code : Nat
  message : String
  deriving DecidableEq, Repr

def Fault.decoder : Decoder Fault :=
  Json.record "struct ErrorBody" <|
    Fault.mk <$> .required "errorCode" (Decoder.word.map UInt64.toNat) <*>
      .optional "message" .string ""

def Fault.ofText (s : String) : Option Fault := (Fault.decoder.ofString s).toOption

def keyNotFound : Nat := 100

def testFailed : Nat := 101

def nodeExists : Nat := 105

/-- The endpoints of a cluster, slashes at their ends left out. -/
structure Cluster where
  endpoints : List String
  deriving DecidableEq, Repr, Inhabited

def Cluster.ofEndpoints (endpoints : List String) : Cluster :=
  ⟨endpoints.map Text.trimSlashes⟩

abbrev Op (α : Type) := ExceptT Error (Task Http.interface) α

structure Query where
  method : Http.Method
  key : String
  pairs : Option (List (String × String))
  value : Option String
  deriving DecidableEq, Repr

def Query.request (q : Query) (endpoint : String) : Except Http.Failure Http.Request := do
  let url ← Http.address? (endpoint ++ "/v2/keys" ++ q.key)
  let url := match q.pairs with
    | some ps => url.addQuery ps
    | none => url
  return match q.value with
    | some v =>
      ⟨q.method, url, some "application/x-www-form-urlencoded",
        Text.Utf8.encode ("value=" ++ Text.Percent.encodeForm v)⟩
    | none => ⟨q.method, url, none, []⟩

/-- Asks the endpoints in order. One that takes no connection or no time to answer is left for the
next one; the failure at the last is reported. -/
def sendFrom (q : Query) : List String → Option Http.Failure → Op Http.Response
  | [], last =>
    throw (.unavailable (match last with
      | some f => f.message
      | none => "no endpoints configured"))
  | e :: rest, _ =>
    match q.request e with
    | .error f => throw (.http f)
    | .ok r => do
      match ← ExceptT.lift (Task.call (I := Http.interface) r) with
      | .answered response => return response
      | .closed => throw (.http (.sending r.url.text))
      | .refused | .timedOut => sendFrom q rest (some (.sending r.url.text))

def send (c : Cluster) (q : Query) : Op Http.Response := sendFrom q c.endpoints none

def node (r : Http.Response) : Op Node :=
  match nodeOf.ofInput (Text.Utf8.symbols r.body) with
  | .ok n => return n
  | .error _ => throw (.http .decoding)

def isMissing (r : Http.Response) : Bool :=
  r.status == 404 && match Fault.ofText r.text with
    | some f => f.code == keyNotFound
    | none => true

def writeError (key : String) (r : Http.Response) : Error :=
  match Fault.ofText r.text with
  | some f =>
    if f.code = testFailed ∨ f.code = nodeExists then .conflict key
    else .backend r.status f.message
  | none => if r.status = 412 then .conflict key else .backend r.status r.text

def write (c : Cluster) (key value : String) (pairs : List (String × String)) : Op Nat := do
  let r ← send c ⟨.put, key, some pairs, some value⟩
  if r.isSuccess then return (← node r).index else throw (writeError key r)

def get (c : Cluster) (key : String) : Op (Option Entry) := do
  let r ← send c ⟨.get, key, none, none⟩
  if r.isSuccess then
    let n ← node r
    return n.value.map fun v => ⟨v, n.index⟩
  else if isMissing r then return none
  else throw (.backend r.status r.text)

/-- The nodes below a directory that hold a value. -/
def entries (n : Node) : List (String × Entry) :=
  (n.nodes.filter fun m => !m.dir).filterMap fun m => m.value.map fun v => (m.key, ⟨v, m.index⟩)

def list (c : Cluster) (dir : String) : Op (List (String × Entry)) := do
  let r ← send c ⟨.get, dir, some [("sorted", "true")], none⟩
  if r.isSuccess then return entries (← node r)
  else if isMissing r then return []
  else throw (.backend r.status r.text)

def set (c : Cluster) (key value : String) : Op Nat := write c key value []

def create (c : Cluster) (key value : String) : Op Nat :=
  write c key value [("prevExist", "false")]

/-- A key that is gone is a conflict as well. -/
def compareAndSet (c : Cluster) (key value : String) (index : Nat) : Op Nat :=
  tryCatch (write c key value [("prevIndex", toString index)]) fun
    | .backend 404 _ => throw (.conflict key)
    | e => throw e

def delete (c : Cluster) (key : String) : Op Bool := do
  let r ← send c ⟨.delete, key, none, none⟩
  if r.isSuccess then return true
  else if isMissing r then return false
  else throw (.backend r.status r.text)

def answer (c : Cluster) : (call : Call) → Task Http.interface call.Answer
  | .get key => (get c key).run
  | .list dir => (list c dir).run
  | .set key value => (set c key value).run
  | .create key value => (create c key value).run
  | .compareAndSet key value index => (compareAndSet c key value index).run
  | .delete key => (delete c key).run

end Etcd

end HostAgent.Store
