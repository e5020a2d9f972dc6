import HostAgent.Proofs.Container.Simulation

namespace HostAgent.Container

/-!
# A daemon that keeps account

The simulated engine, except that it removes a container that runs by force only, and made to read
requests and to answer them. It meets what is asked of a daemon.
-/

open Daemon (Held Stock Command Answer Takes IsId Server command? commandOf?)
open Store.Keys (HasBody)

/-! ## Responses -/

namespace Daemon.Answer

def members : Answer → List (String × Json)
  | .created id => [("Id", .string id)]
  | .done | .unchanged => []
  | .found id h => [("Id", .string id), ("Name", .string ("/" ++ h.name)),
      ("State", .object [("Running", .bool h.running)])]
  | .fault _ => [("message", .string "refused")]

def response (a : Answer) : Http.Response where
  status := match a with
    | .created _ => 201
    | .done => 204
    | .unchanged => 304
    | .found _ _ => 200
    | .fault status => status
  body := Text.Utf8.encode (Json.object a.members).text

theorem hasBody_response (a : Answer) : HasBody a.response a.members := by
  refine .of_text ?_ ?_ ?_
  · cases a <;> simp [members]
  · cases a <;> simp [members, Json.Integral, Json.IntegralMembers]
  · cases a <;> simp [members, Json.depth, Json.depthMembers]

theorem saidBy_response {a : Answer} (hid : ∀ id ∈ a.given, IsId id) : a.SaidBy a.response := by
  have hbody := a.hasBody_response
  cases a with
  | created id => exact ⟨rfl, hid id List.mem_cons_self, _, hbody, rfl⟩
  | done | unchanged => rfl
  | found id h => exact ⟨rfl, _, hbody, rfl, rfl, ⟨_, rfl, _, rfl, by simp, rfl⟩, .inl rfl⟩
  | fault status => exact ⟨rfl, _, "refused", hbody, rfl⟩

end Daemon.Answer

namespace Engine

variable {e : Engine}

/-! ## Identifiers -/

theorem isAlphanum_of_mem_toDigits {n : Nat} {c : Char} (h : c ∈ Nat.toDigits 16 n) :
    c.isAlphanum = true := by
  have hdigit : ∀ n < 16, (Nat.digitChar n).isAlphanum = true := by decide
  induction n using Nat.base_induction 16 (by decide) with
  | single m hm =>
    rw [Nat.toDigits_of_lt_base hm, List.mem_singleton] at h
    rw [h]
    exact hdigit m hm
  | digit m k hk hm ih =>
    rw [← Nat.toDigits_append_toDigits (by decide) hm hk, List.mem_append,
      Nat.toDigits_of_lt_base hk, List.mem_singleton] at h
    rcases h with h | rfl
    · exact ih h
    · exact hdigit k hk

theorem isId_idOf (n : Nat) : IsId (idOf n) where
  nonempty := by
    intro h
    have hlist := congrArg String.toList h
    simp [idOf] at hlist
  alphanum := by
    intro c hc
    simp only [idOf, String.toList_append, String.toList_ofList, List.mem_append] at hc
    rcases hc with hc | hc | hc
    · exact List.all_eq_true.mp (by decide) c hc
    · rw [(List.mem_replicate.mp hc).2]
      decide
    · exact isAlphanum_of_mem_toDigits hc

/-! ## Commands -/

/-- A call for a command. -/
def callFor : Command → Call
  | .create name => .create { (default : Spec) with name }
  | .start id => .start id
  | .stop id => .stop id default
  | .remove id _ => .remove id false
  | .inspect id => .inspect id

/-- What is left of the engine by a command. -/
def after (e : Engine) : Command → Engine
  | .remove id false =>
    if (e.held id).any (·.running) then e else (e.step (.remove id false)).2
  | k => (e.step (callFor k)).2

theorem Steady.after (h : e.Steady) (k : Command) : (e.after k).Steady := by
  unfold Engine.after
  split
  · split
    · exact h
    · exact h.step _
  · exact h.step _

theorem takes_after_remove (hsteady : e.Steady) (id : String) :
    Takes e.stock (.remove id false) (e.answerTo (.remove id false))
      (e.after (.remove id false)).stock := by
  by_cases hruns : ∃ h, e.held id = some h ∧ h.running = true
  · obtain ⟨h, hheld, hh⟩ := hruns
    have hanswer : e.answerTo (.remove id false) = .fault 409 := by simp [answerTo, hheld, hh]
    have hafter : e.after (.remove id false) = e := if_pos (by simp [hheld, hh])
    rw [hanswer, hafter]
    exact .kept hheld hh
  · have hidle : ∀ h, e.held id = some h → h.running = false := by
      intro h hheld
      exact Bool.eq_false_iff.mpr fun hh => hruns ⟨h, hheld, hh⟩
    have hanswer : e.answerTo (.remove id false) = e.answerTo (.remove id true) := by
      cases hheld : e.held id with
      | none => simp [answerTo, hheld]
      | some h => simp [answerTo, hheld, hidle h hheld]
    have hafter : e.after (.remove id false) = (e.step (.remove id false)).2 := by
      refine if_neg ?_
      cases hheld : e.held id with
      | none => simp
      | some h => simp [hidle h hheld]
    rw [hanswer, hafter]
    refine Takes.of_forced (does hsteady (c := .remove id false) rfl).takes ?_
    rintro _ h ⟨⟩ hheld
    exact hidle h hheld

theorem takes_after (h : e.Steady) (k : Command) :
    Takes e.stock k (e.answerTo k) (e.after k).stock := by
  cases k with
  | create name => exact (does h (c := callFor (.create name)) rfl).takes
  | start id => exact (does h (c := .start id) rfl).takes
  | stop id => exact (does h (c := .stop id default) rfl).takes
  | inspect id => exact (does h (c := .inspect id) rfl).takes
  | remove id force =>
    cases force with
    | true => exact (does h (c := .remove id false) rfl).takes
    | false => exact takes_after_remove h id

theorem isId_of_mem_given (h : e.Steady) (k : Command) :
    ∀ id ∈ (e.answerTo k).given, IsId id := by
  intro id hid
  cases k with
  | create name =>
    rw [answerTo] at hid
    split at hid
    · cases hid
    · rw [List.mem_singleton.mp hid]
      exact isId_idOf _
  | start | stop | remove | inspect =>
    rw [((takes_after h _).effect rfl).2.1] at hid
    cases hid

/-! ## The daemon -/

/-- A simulated engine, not made to fail, behind a socket. -/
def server : Server where
  State := { e : Engine // e.Steady }
  stock e := e.1.stock
  respond r e :=
    match command? r with
    | some k => (.answered (e.1.answerTo k).response, ⟨e.1.after k, e.2.after k⟩)
    | none => (.answered (Answer.fault 400).response, e)
  serves := by
    intro r e k hasks
    rw [hasks.command]
    exact ⟨_, _, rfl, takes_after e.2 k, Answer.saidBy_response (isId_of_mem_given e.2 k)⟩

/-- The daemon when there was no container yet. -/
def serverState : server.State := ⟨default, rfl, rfl⟩

theorem respond_of_command {r : Daemon.Request} {k : Command} (h : command? r = some k)
    (s : server.State) :
    server.respond r s = (.answered (s.1.answerTo k).response, ⟨s.1.after k, s.2.after k⟩) := by
  simp only [server, h]

/-- The identifier that is given is the one that the engine answers with. -/
theorem given_server {cl : Daemon.Client} {c : Call} {k : Command} (hk : commandOf? c = some k)
    (hid : ∀ id, c.id? = some id → IsId id) (hfits : cl.Fits c) (s : server.State) :
    given c (Daemon.world server cl c s).1 = (s.1.answerTo k).given := by
  have hrespond := respond_of_command (Daemon.asks_call hk hid).command s
  have hsaid := Answer.saidBy_response (isId_of_mem_given s.2 k)
  rw [Daemon.world_of_answered hid hfits (congrArg Prod.fst hrespond)]
  exact (Daemon.conclude_said hk hid (takes_after s.2 k) hsaid).2

end Engine

end HostAgent.Container
