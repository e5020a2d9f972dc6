import HostAgent.Proofs.Container.Course
import HostAgent.Proofs.Container.EngineServer

namespace HostAgent.Container

/-!
# The simulated engine in place of a daemon

Turns come to the same with the simulated engine and with a daemon that gives other identifiers, as
long as none of them removes a container that runs, which the client never asks for by force, and no
name is so long that its request cannot be made. Whoever starts a container and removes it at once,
as a launch does that cannot inspect what it started, leaves a container that runs.
-/

open Daemon (Held Stock Command Answer Takes Agree Twins Server Client IsId commandOf?)

/-- The simulated engine answers every call. -/
def Engine.world (c : Call) (e : Engine) : Option c.Answer × Engine :=
  (some (e.step c).1, (e.step c).2)

variable {S : Server} {cl : Client} {e : Engine} {s : S.State} {c d : Call} {k k' : Command}
variable {pairs : List (String × String)} {t : Turn} {turns : List Turn} {id : String}

/-! ## One turn -/

/-- No container that runs is to be removed, and none to be created of too long a name. -/
def Alike (cl : Client) (e : Engine) : Call → Prop
  | .create spec => cl.Fits (.create spec)
  | .remove id _ => ∀ h ∈ e.held id, h.running = false
  | .ping | .start _ | .stop _ _ | .inspect _ => True

instance (cl : Client) (e : Engine) : ∀ c, Decidable (Alike cl e c)
  | .create spec => inferInstanceAs (Decidable (cl.Fits (.create spec)))
  | .remove id _ => inferInstanceAs (Decidable (∀ h ∈ e.held id, h.running = false))
  | .ping | .start _ | .stop _ _ | .inspect _ => inferInstanceAs (Decidable True)

/-- The simulated engine and a daemon have come to hold the same containers. -/
structure Level (pairs : List (String × String)) (e : Engine) (w : Stock) : Prop where
  agree : Agree pairs e.stock w
  steady : e.Steady
  ids : ∀ p ∈ pairs, IsId p.2

/-- A call can be made if it creates nothing, or nothing of too long a name. -/
theorem fits_of_turn {seen : List String} (hd : t.call? seen = some d)
    (hsocket : (Text.Utf8.encode cl.socket).length ≤ Daemon.maxSocket)
    (hgrace : ∀ place grace, t = .stop place grace → grace.wholeSeconds < 2 ^ 64)
    (hshort : ∀ id ∈ seen, id.toList.length ≤ Daemon.maxId)
    (hfits : ∀ spec, t = .create spec → cl.Fits (.create spec)) : cl.Fits d := by
  rcases Turn.call?_cases hd with ⟨spec, rfl, rfl⟩ | ⟨id, hid, hdid, hstop⟩
  · exact hfits spec rfl
  · refine Client.fits_of_id hsocket hdid (hshort id hid) ?_
    rintro grace rfl
    obtain ⟨place, rfl⟩ := hstop grace rfl
    exact hgrace place grace rfl

theorem isId_of_twin {w : Stock} (hlevel : Level pairs e w) (htwins : Twins pairs k k')
    (hk' : commandOf? d = some k') : ∀ id, d.id? = some id → IsId id := by
  intro id hid
  rw [← Daemon.id_of_commandOf hk'] at hid
  rcases htwins.cases with ⟨name, -, rfl⟩ | ⟨p, hp, -, hpid, -⟩
  · cases hid
  · cases hpid.symm.trans hid
    exact hlevel.ids p hp

/-- What is the same for both comes to the same, and they stay level. -/
theorem Level.step (hlevel : Level pairs e (S.stock s)) (htwins : Twins pairs k k')
    (hk : commandOf? c = some k) (hk' : commandOf? d = some k') (hfits : cl.Fits d)
    (halike : Alike cl e c) :
    Reply.of c (Engine.world c e).1 = Reply.of d (Daemon.world S cl d s).1 ∧
      ∃ new : List (String × String), given c (Engine.world c e).1 = new.map Prod.fst ∧
        given d (Daemon.world S cl d s).1 = new.map Prod.snd ∧
        Level (pairs ++ new) (Engine.world c e).2 (S.stock (Daemon.world S cl d s).2) := by
  have hdoes := e.does hlevel.steady hk
  have htakes : Takes e.stock k (e.answerTo k.forced) (e.step c).2.stock := by
    refine Takes.of_forced hdoes.takes ?_
    rintro id h rfl hfind
    obtain ⟨volumes, rfl⟩ : ∃ volumes, c = .remove id volumes := by
      cases c <;> cases hk
      exact ⟨_, rfl⟩
    exact halike h hfind
  obtain ⟨a, htakes', hreply, hgiven, hids⟩ :=
    Daemon.world_takes hk' (isId_of_twin hlevel htwins hk') hfits s
  obtain ⟨hsame, new, hnew, hnew', hagree⟩ := hlevel.agree.takes htwins htakes htakes'
  refine ⟨?_, new, ?_, ?_, hagree, hlevel.steady.step c, ?_⟩
  · rw [hreply, ← hsame]
    exact hdoes.reply
  · rw [← hnew]
    exact hdoes.given
  · rw [hgiven, hnew']
  · intro p hp
    rcases List.mem_append.mp hp with hp | hp
    · exact hlevel.ids p hp
    · refine hids p.2 ?_
      rw [hnew']
      exact List.mem_map_of_mem hp

theorem of_not_alike (hnot : ¬ Alike cl e c) :
    (∃ spec, c = .create spec ∧ ¬ cl.Fits (.create spec)) ∨
      ∃ id volumes h, c = .remove id volumes ∧ e.held id = some h ∧ h.running = true := by
  cases c with
  | ping | start | stop | inspect => exact absurd trivial hnot
  | create spec => exact .inl ⟨spec, rfl, hnot⟩
  | remove id volumes =>
    obtain ⟨h, hnot⟩ := not_forall.mp hnot
    obtain ⟨hheld, hruns⟩ := Classical.not_imp.mp hnot
    exact .inr ⟨id, volumes, h, rfl, hheld, Bool.eq_true_of_not_eq_false hruns⟩

theorem Daemon.Answer.reply_ne_lost (a : Answer) : a.reply ≠ .lost := by
  unfold Daemon.Answer.reply
  split <;> nofun

/-- A container that runs is removed from the simulated engine, and kept by the daemon. -/
theorem Level.kept (hlevel : Level pairs e (S.stock s)) (htwins : Twins pairs k k')
    (hk : commandOf? c = some k) (hk' : commandOf? d = some k') (hfits : cl.Fits d)
    {volumes : Bool} {h : Held} (hc : c = .remove id volumes) (hheld : e.held id = some h)
    (hruns : h.running = true) :
    Reply.of c (Engine.world c e).1 = .done ∧ Reply.of d (Daemon.world S cl d s).1 = .conflict := by
  have hdoes := e.does hlevel.steady hk
  obtain ⟨a, htakes, hreply, -, -⟩ :=
    Daemon.world_takes hk' (isId_of_twin hlevel htwins hk') hfits s
  cases hc
  cases hk
  rcases htwins.cases with ⟨name, hname, -⟩ | ⟨p, hp, hid, hid', heffect⟩
  · cases hname
  · cases hid
    have hfind : (S.stock s).find p.2 = some h := (hlevel.agree.alike p hp).symm.trans hheld
    have hforcedId : (Command.forced (.remove p.1 false)).id? = some p.1 := rfl
    have hforced := hdoes.takes.effect hforcedId
    have hunforced := htakes.effect hid'
    have hheld' : e.stock.find p.1 = some h := hheld
    constructor
    · refine hdoes.reply.trans (hforced.1.trans ?_)
      simp [hheld', Command.forced, Command.effect]
    · rw [hreply, hunforced.1, hfind, ← heffect]
      simp [Command.effect, hruns]

theorem reply_ne_of_not_alike (hlevel : Level pairs e (S.stock s)) (htwins : Twins pairs k k')
    (hk : commandOf? c = some k) (hk' : commandOf? d = some k')
    (hcreate : ∀ spec, c = .create spec → d = .create spec)
    (hfits : (∀ spec, d ≠ .create spec) → cl.Fits d) (hnot : ¬ Alike cl e c) :
    Reply.of c (Engine.world c e).1 ≠ Reply.of d (Daemon.world S cl d s).1 := by
  rcases of_not_alike hnot with ⟨spec, hc, hunfit⟩ | ⟨id, volumes, h, hc, hheld, hruns⟩
  · have hreply := (e.does hlevel.steady hk).reply
    cases hcreate spec hc
    rw [Daemon.world_of_not_fits hunfit]
    intro hlost
    exact Answer.reply_ne_lost _ (hreply.symm.trans hlost)
  · have hother : ∀ spec, d ≠ .create spec := by
      rintro spec rfl
      cases hc
      cases hk
      cases hk'
      cases htwins
    obtain ⟨hdone, hconflict⟩ := hlevel.kept htwins hk hk' (hfits hother) hc hheld hruns
    rw [hdone, hconflict]
    nofun

/-! ## Turn after turn -/

theorem fits_of_alike {seen seen' : List String} (hc : t.call? seen = some c)
    (hd : t.call? seen' = some d)
    (hsocket : (Text.Utf8.encode cl.socket).length ≤ Daemon.maxSocket)
    (hgrace : ∀ place grace, t = .stop place grace → grace.wholeSeconds < 2 ^ 64)
    (hshort : ∀ id ∈ seen', id.toList.length ≤ Daemon.maxId) (halike : Alike cl e c) :
    cl.Fits d := by
  refine fits_of_turn hd hsocket hgrace hshort ?_
  rintro spec rfl
  cases hc
  exact halike

/-- A turn that does not suit the simulated engine does not come to the same. -/
theorem reply_ne_of_turn (hlevel : Level pairs e (S.stock s)) (htwins : Twins pairs k k')
    (hk : commandOf? c = some k) (hk' : commandOf? d = some k') {seen seen' : List String}
    (hc : t.call? seen = some c) (hd : t.call? seen' = some d)
    (hsocket : (Text.Utf8.encode cl.socket).length ≤ Daemon.maxSocket)
    (hgrace : ∀ place grace, t = .stop place grace → grace.wholeSeconds < 2 ^ 64)
    (hshort : ∀ id ∈ seen', id.toList.length ≤ Daemon.maxId) (hnot : ¬ Alike cl e c) :
    Reply.of c (Engine.world c e).1 ≠ Reply.of d (Daemon.world S cl d s).1 := by
  refine reply_ne_of_not_alike hlevel htwins hk hk' ?_ ?_ hnot
  · rintro spec rfl
    rcases Turn.call?_cases hc with ⟨_, rfl, ⟨⟩⟩ | ⟨id, -, hid, -⟩
    · exact (Option.some.inj hd).symm
    · cases hid
  · intro hother
    refine fits_of_turn hd hsocket hgrace hshort ?_
    rintro spec rfl
    exact absurd (Option.some.inj hd).symm (hother spec)

/-- The turns come to the same as long as each suits the simulated engine in its place, and no
longer than that. -/
theorem Level.play (hsocket : (Text.Utf8.encode cl.socket).length ≤ Daemon.maxSocket)
    (hgrace : ∀ place grace, .stop place grace ∈ turns → grace.wholeSeconds < 2 ^ 64)
    (hlevel : Level pairs e (S.stock s))
    (hshort : ∀ id ∈ (play (Daemon.world S cl) turns (pairs.map Prod.snd) s).seen,
      id.toList.length ≤ Daemon.maxId) :
    ((play Engine.world turns (pairs.map Prod.fst) e).replies =
        (play (Daemon.world S cl) turns (pairs.map Prod.snd) s).replies ↔
      Throughout Engine.world (Alike cl) turns (pairs.map Prod.fst) e) ∧
    (Throughout Engine.world (Alike cl) turns (pairs.map Prod.fst) e →
      ∃ pairs' : List (String × String),
        (play Engine.world turns (pairs.map Prod.fst) e).seen = pairs'.map Prod.fst ∧
        (play (Daemon.world S cl) turns (pairs.map Prod.snd) s).seen = pairs'.map Prod.snd ∧
        Level pairs' (play Engine.world turns (pairs.map Prod.fst) e).state
          (S.stock (play (Daemon.world S cl) turns (pairs.map Prod.snd) s).state)) := by
  induction turns generalizing pairs e s with
  | nil => exact ⟨⟨fun _ => trivial, fun _ => rfl⟩, fun _ => ⟨pairs, rfl, rfl, hlevel⟩⟩
  | cons t turns ih =>
    have hgrace' := fun place grace h => hgrace place grace (List.mem_cons_of_mem t h)
    rcases Twins.of_turn pairs t with ⟨hc, hd⟩ | ⟨c, d, k, k', hc, hd, hk, hk', htwins⟩
    · rw [play_cons_none hd] at hshort
      rw [play_cons_none hc, play_cons_none hd, throughout_cons_none hc]
      exact ih hgrace' hlevel hshort
    · rw [play_cons_some hd] at hshort
      have hseen : ∀ id ∈ pairs.map Prod.snd, id.toList.length ≤ Daemon.maxId := fun id hid =>
        hshort id (subset_seen_play _ _ _ (List.mem_append_left _ hid))
      have hstop : ∀ place grace, t = .stop place grace → grace.wholeSeconds < 2 ^ 64 := by
        rintro place grace rfl
        exact hgrace place grace List.mem_cons_self
      rw [play_cons_some hc, play_cons_some hd, throughout_cons_some hc, List.cons.injEq]
      by_cases halike : Alike cl e c
      · have hfits := fits_of_alike hc hd hsocket hstop hseen halike
        obtain ⟨hreply, new, hnew, hnew', hnext⟩ := hlevel.step htwins hk hk' hfits halike
        rw [hnew', ← List.map_append] at hshort
        obtain ⟨hreplies, hstates⟩ := ih hgrace' hnext hshort
        rw [hnew, hnew', ← List.map_append, ← List.map_append]
        exact ⟨⟨fun h => ⟨halike, hreplies.mp h.2⟩, fun h => ⟨hreply, hreplies.mpr h.2⟩⟩,
          fun h => hstates h.2⟩
      · have hne := reply_ne_of_turn hlevel htwins hk hk' hc hd hsocket hstop hseen halike
        exact ⟨⟨fun h => absurd h.1 hne, fun h => absurd h.1 halike⟩, fun h => absurd h.1 halike⟩

/-- The same containers were created, are held alike, and no others are held. -/
structure SameContainers (m : Played Engine) (d : Played S.State) : Prop where
  listed : m.seen.map m.state.held = d.seen.map (S.stock d.state).find
  simulated : ∀ id h, m.state.held id = some h → id ∈ m.seen
  daemon : ∀ id h, (S.stock d.state).find id = some h → id ∈ d.seen

theorem Level.sameContainers {m : Played Engine} {d : Played S.State}
    (hlevel : Level pairs m.state (S.stock d.state)) (hm : m.seen = pairs.map Prod.fst)
    (hd : d.seen = pairs.map Prod.snd) : SameContainers m d where
  listed := by
    rw [hm, hd, List.map_map, List.map_map]
    exact List.map_congr_left hlevel.agree.alike
  simulated := by
    intro id h hheld
    obtain ⟨p, hp, rfl⟩ := hlevel.agree.left id h hheld
    rw [hm]
    exact List.mem_map_of_mem hp
  daemon := by
    intro id h hfind
    obtain ⟨p, hp, rfl⟩ := hlevel.agree.right id h hfind
    rw [hd]
    exact List.mem_map_of_mem hp

theorem level_of_empty (hempty : ∀ id, (S.stock s).find id = none) (address : String) :
    Level [] (Engine.ofAddress address) (S.stock s) where
  agree := .of_empty (fun _ => rfl) hempty
  steady := ⟨rfl, rfl⟩
  ids := by simp

/-! ## Launches -/

section Launches

open Executor (engineExchange Launches Starts)

/-- A daemon gives the answers of exchanges with it, in turn. An inspection may also fail on the
way, which changes nothing. -/
def Gives (S : Server) (cl : Client) :
    S.State → List (Exchange Executor.interface) → S.State → Prop
  | s, [], u => u = s
  | s, ⟨.inl c, a⟩ :: l, u =>
    ((Daemon.world S cl c s).1 = some a ∧ Gives S cl (Daemon.world S cl c s).2 l u) ∨
      (∃ id error, (⟨.inl c, a⟩ : Exchange Executor.interface) =
        engineExchange (.inspect id) (.error error)) ∧ Gives S cl s l u
  | s, ⟨.inr _, _⟩ :: l, u => Gives S cl s l u

variable {u : S.State} {l : List (Exchange Executor.interface)} {a : c.Answer} {spec : Spec}

theorem Gives.call (h : Gives S cl s (engineExchange c a :: l) u) (hc : ∀ id, c ≠ .inspect id) :
    (Daemon.world S cl c s).1 = some a ∧ Gives S cl (Daemon.world S cl c s).2 l u := by
  rcases h with h | ⟨⟨id, error, heq⟩, -⟩
  · exact h
  · have hcall := congrArg Sigma.fst heq
    exact absurd (Sum.inl.inj hcall) (hc id)

/-- What a call makes of a container that is there. -/
theorem world_effect {h : Held} (hk : commandOf? c = some k) (hcid : c.id? = some id)
    (hid : IsId id) (hfits : cl.Fits c) (hfind : (S.stock s).find id = some h) :
    Reply.of c (Daemon.world S cl c s).1 = (k.effect (some h)).1 ∧
      (S.stock (Daemon.world S cl c s).2).find id = (k.effect (some h)).2 := by
  have hids : ∀ j, c.id? = some j → IsId j := by
    intro j hj
    cases hcid.symm.trans hj
    exact hid
  obtain ⟨a, htakes, hreply, -, -⟩ := Daemon.world_takes hk hids hfits s
  obtain ⟨heffect, -, hbecomes⟩ := htakes.effect ((Daemon.id_of_commandOf hk).trans hcid)
  rw [hfind] at heffect hbecomes
  refine ⟨hreply.trans heffect, ?_⟩
  rw [hbecomes.find, if_pos rfl]

theorem eq_of_given {a : Option (Except Error String)} (h : given (.create spec) a = [id]) :
    a = some (.ok id) := by
  match a, h with
  | some (.ok j), h => rw [show j = id from List.singleton_inj.mp h]

theorem ofError_ne_done (e : Error) : Reply.ofError e ≠ .done := by
  cases e with
  | notFound | http | json | failed => simp [Reply.ofError]
  | api status message =>
    rw [Reply.ofError]
    split <;> simp

theorem eq_of_reply_start {a : Option (Except Error Unit)} (h : Reply.of (.start id) a = .done) :
    a = some (.ok ()) := by
  match a, h with
  | some (.ok ()), _ => rfl
  | some (.error e), h => exact absurd h (ofError_ne_done e)

theorem created_of_world (h : (Daemon.world S cl (.create spec) s).1 =
    some (.ok id : Except Error String)) :
    IsId id ∧
      (S.stock (Daemon.world S cl (.create spec) s).2).find id = some ⟨spec.name, false⟩ := by
  obtain ⟨a, htakes, -, hgiven, hids⟩ :=
    Daemon.world_takes (c := .create spec) rfl nofun (Daemon.fits_of_world h) s
  rw [h] at hgiven
  have hgiven' : [id] = a.given := hgiven
  rw [← hgiven'] at hids
  refine ⟨hids id List.mem_cons_self, ?_⟩
  rcases htakes.creation with ⟨j, rfl, -, -, hstock⟩ | ⟨rfl, -, -⟩
  · cases hgiven'
    rw [hstock]
    simp
  · cases hgiven'

/-- A launch that started a container and fails has it removed while it runs, to no effect. -/
theorem launch_leaves_running {x : Executor} {role : Role} {error : AgentError}
    (hl : Task.Path (x.launch spec role).run
      (engineExchange (.create spec) (.ok id) :: engineExchange (.start id) (.ok ()) :: l)
      (.done (.error error)))
    (hgives : Gives S cl s
      (engineExchange (.create spec) (.ok id) :: engineExchange (.start id) (.ok ()) :: l) u) :
    (S.stock u).find id = some ⟨spec.name, true⟩ := by
  obtain ⟨e, removal, rfl⟩ : ∃ e removal, l =
      [engineExchange (.inspect id) (.error e), engineExchange (.remove id true) removal] := by
    have hlaunch := Executor.path_launch_iff.mp hl
    generalize hlist : engineExchange (.create spec) (.ok id) ::
      engineExchange (.start id) (.ok ()) :: l = l' at hlaunch
    cases hlaunch with
    | uncreated e => cases hlist
    | failed h removal =>
      cases h with
      | unstarted e => cases hlist
      | uninspected e =>
        cases hlist
        exact ⟨e, removal, rfl⟩
  obtain ⟨hcreated, hgives⟩ := hgives.call nofun
  obtain ⟨hid, hfind⟩ := created_of_world hcreated
  obtain ⟨hstart, hgives⟩ := hgives.call nofun
  have hruns := (world_effect rfl rfl hid (Daemon.fits_of_world hstart) hfind).2
  obtain ⟨t, hruns, hgives⟩ : ∃ t, (S.stock t).find id = some ⟨spec.name, true⟩ ∧
      Gives S cl t [engineExchange (.remove id true) removal] u := by
    rcases hgives with ⟨hinspect, hgives⟩ | ⟨-, hgives⟩
    · exact ⟨_, (world_effect rfl rfl hid (Daemon.fits_of_world hinspect) hruns).2, hgives⟩
    · exact ⟨_, hruns, hgives⟩
  obtain ⟨hremove, hend⟩ := hgives.call nofun
  have hu : u = (Daemon.world S cl (.remove id true) t).2 := hend
  rw [hu]
  exact (world_effect rfl rfl hid (Daemon.fits_of_world hremove) hruns).2

section Cleanup

variable (hfree : ∀ j h, (S.stock s).find j = some h → h.name ≠ spec.name)
variable (hsocket : (Text.Utf8.encode cl.socket).length ≤ Daemon.maxSocket)
variable (hfits : cl.Fits (.create spec))
variable (hshort : ∀ id ∈ given (.create spec) (Daemon.world S cl (.create spec) s).1,
  id.toList.length ≤ Daemon.maxId)

include hfree hsocket hfits hshort

/-- A container that is created, started and then removed is kept. -/
theorem exists_kept (volumes : Bool) : ∃ id,
    (Daemon.world S cl (.create spec) s).1 = some (.ok id : Except Error String) ∧
    (Daemon.world S cl (.start id) (Daemon.world S cl (.create spec) s).2).1 =
      some (.ok () : Except Error Unit) ∧
    Reply.of (.remove id volumes) (Daemon.world S cl (.remove id volumes)
      (Daemon.world S cl (.start id) (Daemon.world S cl (.create spec) s).2).2).1 = .conflict ∧
    (S.stock (Daemon.world S cl (.remove id volumes)
      (Daemon.world S cl (.start id) (Daemon.world S cl (.create spec) s).2).2).2).find id =
        some ⟨spec.name, true⟩ := by
  obtain ⟨a, htakes, -, hgiven, hids⟩ :=
    Daemon.world_takes (c := .create spec) rfl nofun hfits s
  rcases htakes.creation with ⟨id, rfl, -, -, hstock⟩ | ⟨-, ⟨j, h, hfind, hname⟩, -⟩
  · have hid : IsId id := hids id List.mem_cons_self
    have hlength : id.toList.length ≤ Daemon.maxId := by
      refine hshort id ?_
      rw [hgiven]
      exact List.mem_cons_self
    have hfind : (S.stock (Daemon.world S cl (.create spec) s).2).find id =
        some ⟨spec.name, false⟩ := by
      rw [hstock]
      simp
    have hstart : cl.Fits (.start id) := Client.fits_of_id hsocket rfl hlength nofun
    have hremove : cl.Fits (.remove id volumes) := Client.fits_of_id hsocket rfl hlength nofun
    obtain ⟨hdone, hruns⟩ := world_effect rfl rfl hid hstart hfind
    obtain ⟨hconflict, hkept⟩ := world_effect rfl rfl hid hremove hruns
    exact ⟨id, eq_of_given hgiven, eq_of_reply_start hdone, hconflict, hkept⟩
  · exact absurd hname (hfree j h hfind)

theorem replies_kept (volumes : Bool) :
    (play (Daemon.world S cl) [.create spec, .start 0, .remove 0 volumes] [] s).replies =
      [.created, .done, .conflict] := by
  obtain ⟨id, hcreated, hstarted, hconflict, -⟩ := exists_kept hfree hsocket hfits hshort volumes
  have hgiven : given (.create spec) (Daemon.world S cl (.create spec) s).1 = [id] := by
    rw [hcreated]
    rfl
  have hstart : Reply.of (.start id) (Daemon.world S cl (.start id)
      (Daemon.world S cl (.create spec) s).2).1 = .done := by
    rw [hstarted]
    rfl
  have hcreate : Reply.of (.create spec) (Daemon.world S cl (.create spec) s).1 = .created := by
    rw [hcreated]
    rfl
  rw [play_cons_some (t := .create spec) rfl, hgiven, play_cons_some (t := .start 0) rfl,
    play_cons_some (t := .remove 0 volumes) rfl]
  exact congrArg₂ List.cons hcreate (congrArg₂ List.cons hstart (congrArg₂ List.cons hconflict rfl))

/-- A launch can come to that in front of any daemon. -/
theorem exists_gives (error : Error) :
    ∃ id removal u, Gives S cl s [engineExchange (.create spec) (.ok id),
      engineExchange (.start id) (.ok ()), engineExchange (.inspect id) (.error error),
      engineExchange (.remove id true) removal] u := by
  obtain ⟨id, hcreated, hstarted, hconflict, -⟩ := exists_kept hfree hsocket hfits hshort true
  obtain ⟨removal, hremove⟩ : ∃ removal, (Daemon.world S cl (.remove id true)
      (Daemon.world S cl (.start id) (Daemon.world S cl (.create spec) s).2).2).1 =
        some removal := by
    refine Option.ne_none_iff_exists'.mp fun hnone => ?_
    rw [hnone] at hconflict
    cases hconflict
  exact ⟨id, removal, _,
    .inl ⟨hcreated, .inl ⟨hstarted, .inr ⟨⟨id, error, rfl⟩, .inl ⟨hremove, rfl⟩⟩⟩⟩⟩

end Cleanup

end Launches

/-! ## In front of a daemon -/

/-- The simulated engine stands in for a daemon, but for one thing. Turns come to the same with both
if and only if none of them removes a container that runs and none creates one of too long a name,
and then the same containers are held. A launch that fails although it started its container leaves
it behind, and it runs. -/
theorem engine_stands_in (hsocket : (Text.Utf8.encode cl.socket).length ≤ Daemon.maxSocket)
    (hgrace : ∀ place grace, .stop place grace ∈ turns → grace.wholeSeconds < 2 ^ 64)
    (hempty : ∀ id, (S.stock s).find id = none)
    (hshort : ∀ id ∈ (play (Daemon.world S cl) turns [] s).seen,
      id.toList.length ≤ Daemon.maxId) (address : String) :
    ((play Engine.world turns [] (.ofAddress address)).replies =
        (play (Daemon.world S cl) turns [] s).replies ↔
      Throughout Engine.world (Alike cl) turns [] (.ofAddress address)) ∧
    (Throughout Engine.world (Alike cl) turns [] (.ofAddress address) →
      SameContainers (play Engine.world turns [] (.ofAddress address))
        (play (Daemon.world S cl) turns [] s)) ∧
    ∀ (x : Executor) (spec : Spec) (role : Role) (t u : S.State) (id : String)
      (l : List (Exchange Executor.interface)) (error : AgentError),
      Task.Path (x.launch spec role).run (Executor.engineExchange (.create spec) (.ok id) ::
        Executor.engineExchange (.start id) (.ok ()) :: l) (.done (.error error)) →
      Gives S cl t (Executor.engineExchange (.create spec) (.ok id) ::
        Executor.engineExchange (.start id) (.ok ()) :: l) u →
      (S.stock u).find id = some ⟨spec.name, true⟩ := by
  obtain ⟨hreplies, hstates⟩ := Level.play hsocket hgrace (level_of_empty hempty address) hshort
  refine ⟨hreplies, ?_, ?_⟩
  · intro halike
    obtain ⟨pairs, hm, hd, hlevel⟩ := hstates halike
    exact hlevel.sameContainers hm hd
  · intro x spec role t u id l error hl hgives
    exact launch_leaves_running hl hgives

def dockerSocket : Client := ⟨"/var/run/docker.sock"⟩

def specR1 : Spec := { (default : Spec) with name := "r1", image := "longhorn-engine" }

theorem fits_specR1 : dockerSocket.Fits (.create specR1) := by decide +kernel

theorem given_specR1 : given (.create specR1)
    (Daemon.world Engine.server dockerSocket (.create specR1) Engine.serverState).1 =
      [Engine.idOf 1] :=
  Engine.given_server (c := .create specR1) rfl nofun fits_specR1 Engine.serverState

theorem free_specR1 : ∀ id h, (Engine.server.stock Engine.serverState).find id = some h →
    h.name ≠ specR1.name := by
  intro id h hfind
  cases hfind

theorem short_specR1 : ∀ id ∈ given (.create specR1)
    (Daemon.world Engine.server dockerSocket (.create specR1) Engine.serverState).1,
    id.toList.length ≤ Daemon.maxId := by
  rw [given_specR1]
  decide

def lifeR1 : List Turn :=
  [.create specR1, .start 0, .inspect 0, .stop 0 (.seconds 10), .remove 0 true, .inspect 0]

theorem seen_lifeR1 : (play (Daemon.world Engine.server dockerSocket) lifeR1 []
    Engine.serverState).seen = [Engine.idOf 1] := by
  rw [lifeR1, play_cons_some (t := .create specR1) rfl, given_specR1]
  rfl

/-- A container that is stopped before it is removed, and one whose launch fails. -/
theorem engine_stands_in_lifeR1 :
    (play Engine.world lifeR1 [] (.ofAddress "172.17.0.2")).replies =
      (play (Daemon.world Engine.server dockerSocket) lifeR1 [] Engine.serverState).replies ∧
    SameContainers (S := Engine.server) (play Engine.world lifeR1 [] (.ofAddress "172.17.0.2"))
      (play (Daemon.world Engine.server dockerSocket) lifeR1 [] Engine.serverState) ∧
    ∃ u id, (Engine.server.stock u).find id = some ⟨"r1", true⟩ := by
  have hgrace : ∀ place grace, Turn.stop place grace ∈ lifeR1 → grace.wholeSeconds < 2 ^ 64 := by
    intro place grace hmem
    simp only [lifeR1, List.mem_cons, Turn.stop.injEq, reduceCtorEq, false_or, or_false,
      List.not_mem_nil] at hmem
    rw [hmem.2]
    decide
  have hshort : ∀ id ∈ (play (Daemon.world Engine.server dockerSocket) lifeR1 []
      Engine.serverState).seen, id.toList.length ≤ Daemon.maxId := by
    rw [seen_lifeR1]
    decide
  obtain ⟨hreplies, hsame, hlaunch⟩ := engine_stands_in (S := Engine.server)
    (by decide) hgrace (fun _ => rfl) hshort "172.17.0.2"
  have halike : Throughout Engine.world (Alike dockerSocket) lifeR1 []
      (.ofAddress "172.17.0.2") := by
    decide +kernel
  obtain ⟨id, removal, u, hgives⟩ := exists_gives (S := Engine.server) (s := Engine.serverState)
    free_specR1 (by decide) fits_specR1 short_specR1 (.failed "no answer")
  have hstarts : Executor.Starts ⟨⟨"h1", "", ""⟩, .standard⟩ id .replica _ _ :=
    .uninspected (.failed "no answer")
  have hlaunches : Executor.Launches _ specR1 _ _ _ := .failed hstarts removal
  have hpath := Executor.path_launch_iff.mpr hlaunches
  exact ⟨hreplies.mpr halike, hsame halike, u, id, hlaunch _ _ _ _ _ _ _ _ hpath hgives⟩

/-- A container that runs is removed from the simulated engine and not from a daemon. -/
theorem running_removal_tells_apart :
    (play Engine.world [.create specR1, .start 0, .remove 0 true] []
      (.ofAddress "172.17.0.2")).replies = [.created, .done, .done] ∧
    (play (Daemon.world Engine.server dockerSocket) [.create specR1, .start 0, .remove 0 true] []
      Engine.serverState).replies = [.created, .done, .conflict] := by
  refine ⟨by decide +kernel, ?_⟩
  exact replies_kept free_specR1 (by decide) fits_specR1 short_specR1 true

end HostAgent.Container
