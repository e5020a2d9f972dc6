import HostAgent.Container.Daemon
import HostAgent.Proofs.Store.KeyServer

namespace HostAgent.Container.Daemon

/-!
# Daemons

What a daemon does that speaks version 1.24 of the interface of engines, as far as its documentation
says: which request is which command, what a command comes to, and how that is said in an answer.
The identifiers of new containers, the messages of faults and the members that an answer has besides
are left open.
-/

/-! ## Containers -/

structure Held where
  name : String
  running : Bool
  deriving DecidableEq, Repr

/-- The containers of a daemon, and the identifiers that were given so far. -/
structure Stock where
  find : String → Option Held
  Issued : String → Prop

namespace Stock

def put (w : Stock) (id : String) (h : Held) : Stock :=
  { w with find := fun j => if j = id then some h else w.find j }

def erase (w : Stock) (id : String) : Stock :=
  { w with find := fun j => if j = id then none else w.find j }

def issue (w : Stock) (id : String) : Stock :=
  { w with Issued := fun j => j = id ∨ w.Issued j }

variable {w : Stock} {id j : String} {h : Held}

@[simp] theorem find_put : (w.put id h).find j = if j = id then some h else w.find j := rfl

@[simp] theorem find_erase : (w.erase id).find j = if j = id then none else w.find j := rfl

@[simp] theorem find_issue : (w.issue id).find = w.find := rfl

@[simp] theorem issued_put : (w.put id h).Issued = w.Issued := rfl

@[simp] theorem issued_erase : (w.erase id).Issued = w.Issued := rfl

@[simp] theorem issued_issue : (w.issue id).Issued j ↔ j = id ∨ w.Issued j := Iff.rfl

theorem put_self (hfind : w.find id = some h) : w.put id h = w := by
  rw [put, Stock.mk.injEq]
  refine ⟨funext fun j => ?_, rfl⟩
  split
  next hj => rw [hj, hfind]
  next => rfl

end Stock

/-- Identifiers are made of letters and digits. -/
structure IsId (id : String) : Prop where
  nonempty : id ≠ ""
  alphanum : ∀ c ∈ id.toList, c.isAlphanum = true

/-! ## Commands -/

inductive Command where
  | create (name : String)
  | start (id : String)
  | stop (id : String)
  | remove (id : String) (force : Bool)
  | inspect (id : String)
  deriving DecidableEq, Repr

def Command.id? : Command → Option String
  | .create _ => none
  | .start id | .stop id | .remove id _ | .inspect id => some id

inductive Answer where
  | created (id : String)
  | done
  | unchanged
  | found (id : String) (container : Held)
  | fault (status : Nat)
  deriving DecidableEq, Repr

/-- What a command comes to, and what it leaves. A container that runs is removed by force only. -/
inductive Takes (w : Stock) : Command → Answer → Stock → Prop
  | created {name id} (hfree : ∀ j h, w.find j = some h → h.name ≠ name)
      (hnew : ¬ w.Issued id) :
      Takes w (.create name) (.created id) ((w.issue id).put id ⟨name, false⟩)
  | taken {name j h} (hfind : w.find j = some h) (hname : h.name = name) :
      Takes w (.create name) (.fault 409) w
  | started {id h} (hfind : w.find id = some h) (hidle : h.running = false) :
      Takes w (.start id) .done (w.put id { h with running := true })
  | running {id h} (hfind : w.find id = some h) (hruns : h.running = true) :
      Takes w (.start id) .unchanged w
  | stopped {id h} (hfind : w.find id = some h) (hruns : h.running = true) :
      Takes w (.stop id) .done (w.put id { h with running := false })
  | idle {id h} (hfind : w.find id = some h) (hidle : h.running = false) :
      Takes w (.stop id) .unchanged w
  | removed {id force h} (hfind : w.find id = some h)
      (hmay : h.running = false ∨ force = true) : Takes w (.remove id force) .done (w.erase id)
  | kept {id h} (hfind : w.find id = some h) (hruns : h.running = true) :
      Takes w (.remove id false) (.fault 409) w
  | inspected {id h} (hfind : w.find id = some h) : Takes w (.inspect id) (.found id h) w
  | unknown {c id} (hc : Command.id? c = some id) (hfind : w.find id = none) :
      Takes w c (.fault 404) w

/-! ## Requests -/

/-- The parts of the path of a request. -/
def parts (r : Request) : List String :=
  Text.splitAt '/' (String.ofList (r.target.toList.takeWhile (· != '?')))

/-- The pairs of the query of a request. -/
def query (r : Request) : List (String × String) :=
  Text.Percent.decodeForm ((r.target.toList.dropWhile (· != '?')).drop 1)

/-- The command of a method, what the path has below the directory of containers, and a query. -/
def commandFor : Http.Method → List String → List (String × String) → Option Command
  | .post, [word], query => if word = "create" then (query.lookup "name").map .create else none
  | .post, [id, word], _ =>
    if word = "start" then some (.start id) else if word = "stop" then some (.stop id) else none
  | .delete, [id], query => some (.remove id (query.lookup "force" == some "true"))
  | .get, [id, word], _ => if word = "json" then some (.inspect id) else none
  | _, _, _ => none

/-- The command that a request is read as. -/
def command? (r : Request) : Option Command :=
  if (parts r).take 3 = ["", "v1.24", "containers"] then
    commandFor r.method ((parts r).drop 3) (query r)
  else none

/-- A request asks for a command: it is read as such, about an identifier that containers can have,
and to create one its body is an object. -/
structure Asks (r : Request) (c : Command) : Prop where
  command : command? r = some c
  id : ∀ id, c.id? = some id → IsId id
  body : ∀ name, c = .create name →
    r.contentType = some "application/json" ∧ ∃ m, r.body = Text.Utf8.encode (Json.object m).text

/-! ## Responses -/

open Store.Keys (HasBody)

/-- Members say whether a container runs. -/
def SaysState (j : Json) (running : Bool) : Prop :=
  ∃ m, j = .object m ∧ (m.map Prod.fst).Nodup ∧ m.lookup "Running" = some (.bool running)

/-- What may be said of the network of a container: an address, or nothing. -/
def SaysNetwork (j : Json) : Prop :=
  ∃ m, j = .object m ∧ (m.map Prod.fst).Nodup ∧
    (m.lookup "IPAddress" = none ∨ ∃ a, m.lookup "IPAddress" = some (.string a))

/-- A response says an answer. -/
def Answer.SaidBy (r : Http.Response) : Answer → Prop
  | .created id => r.status = 201 ∧ IsId id ∧
      ∃ m, HasBody r m ∧ m.lookup "Id" = some (.string id)
  | .done => r.status = 204
  | .unchanged => r.status = 304
  | .found id h => r.status = 200 ∧ ∃ m, HasBody r m ∧ m.lookup "Id" = some (.string id) ∧
      m.lookup "Name" = some (.string ("/" ++ h.name)) ∧
      (∃ j, m.lookup "State" = some j ∧ SaysState j h.running) ∧
      (m.lookup "NetworkSettings" = none ∨
        ∃ j, m.lookup "NetworkSettings" = some j ∧ SaysNetwork j)
  | .fault status => r.status = status ∧
      ∃ m message, HasBody r m ∧ m.lookup "message" = some (.string message)

/-- A daemon that answers all that is asked of it. -/
structure Server where
  State : Type
  stock : State → Stock
  respond : Request → State → Outcome × State
  serves : ∀ r s c, Asks r c → ∃ response a, (respond r s).1 = .answered response ∧
    Takes (stock s) c a (stock (respond r s).2) ∧ a.SaidBy response

end HostAgent.Container.Daemon
