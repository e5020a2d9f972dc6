import HostAgent.Proofs.Container.DaemonRequests
import HostAgent.Proofs.Container.Turns
import HostAgent.Proofs.Store.KeyAnswers
import HostAgent.Proofs.Task.Run

namespace HostAgent.Container.Daemon

/-!
# Answers of a daemon

What the client makes of a response is what the daemon has answered in it: a success, a container as
it is held, a name that is taken, or a container that is missing.
-/

open Store.Keys (HasBody)
open Store.Etcd (ofInput_of_body)
open Json (Decodes Fields)

variable {r : Http.Response} {m : List (String × Json)} {j : Json} {id : String}

/-! ## Bodies -/

theorem decodes_createdId (hm : (m.map Prod.fst).Nodup) (hid : m.lookup "Id" = some (.string id)) :
    Decodes createdId (.object m) id :=
  Json.decodes_object "struct CreateContainerResponse"
    (Fields.reads_required (Json.decodes_string id) hid) hm

theorem decodes_runningState {running : Bool} (h : SaysState j running) :
    Decodes runningState j running := by
  obtain ⟨m, rfl, hm, hrunning⟩ := h
  exact Json.decodes_object "struct InspectState"
    (Fields.reads_required (Json.decodes_bool running) hrunning) hm

theorem decodes_networkAddress (h : SaysNetwork j) : ∃ a, Decodes networkAddress j a := by
  obtain ⟨m, rfl, hm, hnone | ⟨a, ha⟩⟩ := h
  · exact ⟨"", Json.decodes_object "struct InspectNetwork" (Fields.reads_absent hnone "") hm⟩
  · exact ⟨a, Json.decodes_object "struct InspectNetwork"
      (Fields.reads_optional (Json.decodes_string a) ha "") hm⟩

theorem reads_network (h : m.lookup "NetworkSettings" = none ∨
    ∃ j, m.lookup "NetworkSettings" = some j ∧ SaysNetwork j) :
    ∃ a, (Fields.optional "NetworkSettings" networkAddress "").Reads m a := by
  rcases h with hnone | ⟨j, hj, hsays⟩
  · exact ⟨"", Fields.reads_absent hnone ""⟩
  · obtain ⟨a, ha⟩ := decodes_networkAddress hsays
    exact ⟨a, Fields.reads_optional ha hj ""⟩

/-- A container that was found is read with its name, which has a slash in front, and with whether
it runs. -/
theorem status_of_body {h : Held} (hsaid : (Answer.found id h).SaidBy r) :
    ∃ a, status.ofInput (Text.Utf8.symbols r.body) = .ok ⟨id, "/" ++ h.name, a, h.running⟩ := by
  obtain ⟨-, m, hbody, hid, hname, ⟨j, hj, hstate⟩, hnetwork⟩ := hsaid
  obtain ⟨a, ha⟩ := reads_network hnetwork
  have hreads := ((((Fields.reads_required (Json.decodes_string id) hid).map
    fun id name running address => Status.mk id name address running).seq
      (Fields.reads_required (Json.decodes_string ("/" ++ h.name)) hname)).seq
        (Fields.reads_required (decodes_runningState hstate) hj)).seq ha
  exact ⟨a, ofInput_of_body hbody
    (Json.decodes_object "struct InspectResponse" hreads hbody.distinct)⟩

theorem createdId_of_body (hsaid : (Answer.created id).SaidBy r) :
    createdId.ofInput (Text.Utf8.symbols r.body) = .ok id := by
  obtain ⟨-, -, m, hbody, hid⟩ := hsaid
  exact ofInput_of_body hbody (decodes_createdId hbody.distinct hid)

/-! ## Replies -/

def Answer.reply : Answer → Reply
  | .created _ => .created
  | .done | .unchanged => .done
  | .found _ h => .found ("/" ++ h.name) h.running
  | .fault 404 => .missing
  | .fault 409 => .conflict
  | .fault _ => .failed

def Answer.given : Answer → List String
  | .created id => [id]
  | .done | .unchanged | .found _ _ | .fault _ => []

theorem isId_of_said {a : Answer} (h : a.SaidBy r) : ∀ id ∈ a.given, IsId id := by
  intro id hid
  cases a with
  | created j =>
    cases List.mem_singleton.mp hid
    exact h.2.1
  | done | unchanged | found j c | fault n => cases hid

theorem isSuccess_of_status {n : Nat} (h : r.status = n) :
    r.isSuccess = (200 ≤ n && n < 300) := by
  rw [Http.Response.isSuccess, h]

theorem ofError_apiError_of_missing (h : r.status = 404) (hid : id ≠ "") :
    Reply.ofError (apiError id r) = .missing := by
  rw [apiError, if_pos ⟨h, hid⟩]
  rfl

theorem ofError_apiError_of_conflict (h : r.status = 409) :
    Reply.ofError (apiError id r) = .conflict := by
  have hmissing : ¬ (r.status = 404 ∧ id ≠ "") := by
    rw [h]
    simp
  rw [apiError, if_neg hmissing]
  split <;> simp [Reply.ofError, h]

/-- An error that says what the daemon has against a command. -/
theorem ofError_apiError {n : Nat} (hn : n = 404 ∧ id ≠ "" ∨ n = 409) (h : r.status = n) :
    Reply.ofError (apiError id r) = (Answer.fault n).reply := by
  rcases hn with ⟨rfl, hid⟩ | rfl
  · exact ofError_apiError_of_missing h hid
  · exact ofError_apiError_of_conflict h

theorem not_success_of_fault {n : Nat} (hn : n = 404 ∧ id ≠ "" ∨ n = 409) (h : r.status = n) :
    r.isSuccess = false ∧ (r.status == notModified) = false := by
  rw [isSuccess_of_status h, h]
  rcases hn with ⟨rfl, -⟩ | rfl <;> decide

section Concluded

variable {w w' : Stock} {a : Answer} {name : String}

/-- The faults that there are for a command. -/
theorem Takes.fault {k : Command} {n : Nat} (h : Takes w k (.fault n) w') (hid : k.id? = some id)
    (hne : id ≠ "") : n = 404 ∧ id ≠ "" ∨ n = 409 := by
  cases h with
  | taken _ _ => exact .inr rfl
  | kept _ _ => exact .inr rfl
  | unknown _ _ => exact .inl ⟨rfl, hne⟩

theorem reply_settledOrSo (hsaid : a.SaidBy r) (ha : a = .done ∨ a = .unchanged ∨
    ∃ n, a = .fault n ∧ (n = 404 ∧ id ≠ "" ∨ n = 409)) :
    Reply.ofAnswer (fun _ => .done) (some (settledOrSo r id)) = a.reply := by
  rcases ha with rfl | rfl | ⟨n, rfl, hn⟩
  · have hstatus : r.status = 204 := hsaid
    rw [settledOrSo, isSuccess_of_status hstatus]
    rfl
  · have hstatus : r.status = 304 := hsaid
    rw [settledOrSo, hstatus]
    simp [notModified, Reply.ofAnswer, Answer.reply]
  · obtain ⟨hsuccess, hsame⟩ := not_success_of_fault hn hsaid.1
    rw [settledOrSo, hsuccess, hsame]
    exact ofError_apiError hn hsaid.1

theorem reply_settled (hsaid : a.SaidBy r)
    (ha : a = .done ∨ ∃ n, a = .fault n ∧ (n = 404 ∧ id ≠ "" ∨ n = 409)) :
    Reply.ofAnswer (fun _ => .done) (some (settled r id)) = a.reply := by
  rcases ha with rfl | ⟨n, rfl, hn⟩
  · have hstatus : r.status = 204 := hsaid
    rw [settled, isSuccess_of_status hstatus]
    rfl
  · rw [settled, (not_success_of_fault hn hsaid.1).1]
    exact ofError_apiError hn hsaid.1

theorem decoded_of_fault {α : Type} {n : Nat} (hn : n = 404 ∧ id ≠ "" ∨ n = 409)
    (hstatus : r.status = n) (d : Json.Decoder α) : decoded d r id = .error (apiError id r) := by
  rw [decoded, (not_success_of_fault hn hstatus).1]
  rfl

/-- What the client makes of a response to a call and what the daemon has answered are the same. -/
def Agrees (c : Call) (r : Http.Response) (a : Answer) : Prop :=
  Reply.of c (some (conclude c (.ok r))) = a.reply ∧ given c (some (conclude c (.ok r))) = a.given

theorem agrees_create {spec : Spec} (htakes : Takes w (.create spec.name) a w')
    (hsaid : a.SaidBy r) : Agrees (.create spec) r a := by
  have hconclude : ∀ x, decoded createdId r "" = x →
      conclude (.create spec) (.ok r) = x := fun _ h => h
  rw [Agrees]
  cases htakes with
  | @created _ id _ _ =>
    have hsuccess : decoded createdId r "" = .ok id := by
      rw [decoded, isSuccess_of_status hsaid.1, createdId_of_body hsaid]
      rfl
    rw [hconclude _ hsuccess]
    exact ⟨rfl, rfl⟩
  | taken _ _ =>
    have hn : 409 = 404 ∧ "" ≠ "" ∨ 409 = 409 := .inr rfl
    rw [hconclude _ (decoded_of_fault hn hsaid.1 createdId)]
    exact ⟨ofError_apiError hn hsaid.1, rfl⟩
  | unknown hc _ => cases hc

theorem agrees_inspect (hne : id ≠ "") (htakes : Takes w (.inspect id) a w')
    (hsaid : a.SaidBy r) : Agrees (.inspect id) r a := by
  have hconclude : ∀ x, decoded status r id = x → conclude (.inspect id) (.ok r) = x :=
    fun _ h => h
  rw [Agrees]
  cases htakes with
  | @inspected _ h _ =>
    obtain ⟨address, hstatus⟩ := status_of_body hsaid
    have hsuccess : decoded status r id = .ok ⟨id, "/" ++ h.name, address, h.running⟩ := by
      rw [decoded, isSuccess_of_status hsaid.1, hstatus]
      rfl
    rw [hconclude _ hsuccess]
    exact ⟨rfl, rfl⟩
  | unknown hc hnone =>
    have hn := (Takes.unknown hc hnone).fault rfl hne
    rw [hconclude _ (decoded_of_fault hn hsaid.1 status)]
    exact ⟨ofError_apiError hn hsaid.1, rfl⟩

/-- The client makes of a response what the daemon has answered. -/
theorem conclude_said {c : Call} {k : Command} (hk : commandOf? c = some k)
    (hid : ∀ id, c.id? = some id → IsId id) (htakes : Takes w k a w') (hsaid : a.SaidBy r) :
    Agrees c r a := by
  have hfault : ∀ id, k.id? = some id → ∀ n, a = .fault n → n = 404 ∧ id ≠ "" ∨ n = 409 := by
    rintro id hkid n rfl
    have hcid := (id_of_commandOf hk).symm.trans hkid
    exact htakes.fault hkid (hid id hcid).nonempty
  cases c with
  | ping => cases hk
  | create spec =>
    cases hk
    exact agrees_create htakes hsaid
  | start id =>
    cases hk
    refine ⟨reply_settledOrSo hsaid ?_, ?_⟩
    · cases htakes with
      | started _ _ => exact .inl rfl
      | running _ _ => exact .inr (.inl rfl)
      | unknown _ _ => exact .inr (.inr ⟨_, rfl, hfault id rfl _ rfl⟩)
    · cases htakes <;> rfl
  | stop id grace =>
    cases hk
    refine ⟨reply_settledOrSo hsaid ?_, ?_⟩
    · cases htakes with
      | stopped _ _ => exact .inl rfl
      | idle _ _ => exact .inr (.inl rfl)
      | unknown _ _ => exact .inr (.inr ⟨_, rfl, hfault id rfl _ rfl⟩)
    · cases htakes <;> rfl
  | remove id volumes =>
    cases hk
    refine ⟨reply_settled hsaid ?_, ?_⟩
    · cases htakes with
      | removed _ _ => exact .inl rfl
      | kept _ _ => exact .inr ⟨_, rfl, hfault id rfl _ rfl⟩
      | unknown _ _ => exact .inr ⟨_, rfl, hfault id rfl _ rfl⟩
    · cases htakes <;> rfl
  | inspect id =>
    cases hk
    exact agrees_inspect (hid id rfl).nonempty htakes hsaid

end Concluded

/-! ## Calls -/

/-- The engine behind a socket, in front of a daemon. -/
def world (S : Server) (cl : Client) (c : Call) (s : S.State) : Option c.Answer × S.State :=
  (answer cl c).run S.respond s

variable {S : Server} {cl : Client} {c : Call} {k : Command}

/-- The client makes one request and concludes from its response. -/
theorem world_of_answered {response : Http.Response} {s : S.State}
    (hid : ∀ id, c.id? = some id → IsId id) (hfits : cl.Fits c)
    (h : (S.respond (requestOf (method c) (version ++ path c) (content c)) s).1 =
      .answered response) :
    world S cl c s = (some (conclude c (.ok response)),
      (S.respond (requestOf (method c) (version ++ path c) (content c)) s).2) := by
  rw [world, answer_eq c (target?_call (fun id hc => (hid id hc).in_path) hfits),
    Task.run_ask_done, h]
  rfl

/-- A call comes to what the daemon takes it for. -/
theorem world_takes (hk : commandOf? c = some k) (hid : ∀ id, c.id? = some id → IsId id)
    (hfits : cl.Fits c) (s : S.State) :
    ∃ a, Takes (S.stock s) k a (S.stock (world S cl c s).2) ∧
      Reply.of c (world S cl c s).1 = a.reply ∧ given c (world S cl c s).1 = a.given ∧
      ∀ id ∈ a.given, IsId id := by
  obtain ⟨response, a, hanswered, htakes, hsaid⟩ := S.serves _ s k (asks_call hk hid)
  obtain ⟨hreply, hgiven⟩ := conclude_said hk hid htakes hsaid
  rw [world_of_answered hid hfits hanswered]
  exact ⟨a, htakes, hreply, hgiven, isId_of_said hsaid⟩

theorem world_of_not_fits (h : ¬ cl.Fits c) (s : S.State) : world S cl c s = (none, s) := by
  rw [world, answer_of_not_fits h, Task.run_done]

theorem fits_of_world {s : S.State} {a : c.Answer} (h : (world S cl c s).1 = some a) :
    cl.Fits c := by
  by_contra hnot
  rw [world_of_not_fits hnot] at h
  cases h

end HostAgent.Container.Daemon
