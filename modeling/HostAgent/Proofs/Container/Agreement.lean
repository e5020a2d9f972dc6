import HostAgent.Proofs.Container.DaemonAnswers
import Mathlib.Data.List.Nodup

namespace HostAgent.Container.Daemon

/-!
# Stocks that agree

Two daemons give identifiers of their own. Their stocks agree if the containers that were created in
the same turns are held alike, and no others are held. A command on one of them, and the creation of
another one, come to the same on both sides and keep the agreement.
-/

variable {w w' v v' : Stock} {a b : Answer} {k k' : Command} {id name : String}
variable {pairs : List (String × String)} {h : Held}

/-! ## Commands on one container -/

/-- What is replied to a command by what is held of its container, and what is held of it then. -/
def Command.effect : Command → Option Held → Reply × Option Held
  | _, none => (.missing, none)
  | .create _, some h => (.conflict, some h)
  | .start _, some h => (.done, some { h with running := true })
  | .stop _, some h => (.done, some { h with running := false })
  | .remove _ force, some h =>
    if h.running && !force then (.conflict, some h) else (.done, none)
  | .inspect _, some h => (.found ("/" ++ h.name) h.running, some h)

/-- A stock in which something else may be held of one container. -/
structure Stock.Becomes (w : Stock) (id : String) (x : Option Held) (w' : Stock) : Prop where
  issued : w'.Issued = w.Issued
  find : ∀ j, w'.find j = if j = id then x else w.find j

namespace Stock

theorem becomes_self (hfind : w.find id = some h) : w.Becomes id (some h) w where
  issued := rfl
  find := by
    intro j
    split
    next hj => rw [hj, hfind]
    next => rfl

theorem becomes_none (hfind : w.find id = none) : w.Becomes id none w where
  issued := rfl
  find := by
    intro j
    split
    next hj => rw [hj, hfind]
    next => rfl

theorem becomes_put : w.Becomes id (some h) (w.put id h) := ⟨rfl, fun _ => rfl⟩

theorem becomes_erase : w.Becomes id none (w.erase id) := ⟨rfl, fun _ => rfl⟩

end Stock

/-- A command on a container touches nothing else, and what it comes to depends on what is held of
that container alone. -/
theorem Takes.effect (ht : Takes w k a w') (hid : k.id? = some id) :
    a.reply = (k.effect (w.find id)).1 ∧ a.given = [] ∧
      w.Becomes id (k.effect (w.find id)).2 w' := by
  cases ht with
  | created _ _ | taken _ _ => cases hid
  | unknown hc hfind =>
    cases hid.symm.trans hc
    rw [hfind]
    cases k with
    | create name => cases hid
    | start | stop | remove | inspect => exact ⟨rfl, rfl, Stock.becomes_none hfind⟩
  | started hfind _ =>
    cases hid
    rw [hfind]
    exact ⟨rfl, rfl, Stock.becomes_put⟩
  | @running _ h hfind hruns =>
    cases hid
    obtain ⟨name, _⟩ := h
    cases hruns
    rw [hfind]
    exact ⟨rfl, rfl, Stock.becomes_self hfind⟩
  | stopped hfind _ =>
    cases hid
    rw [hfind]
    exact ⟨rfl, rfl, Stock.becomes_put⟩
  | @idle _ h hfind hidle =>
    cases hid
    obtain ⟨name, _⟩ := h
    cases hidle
    rw [hfind]
    exact ⟨rfl, rfl, Stock.becomes_self hfind⟩
  | removed hfind hmay =>
    cases hid
    rw [hfind, Command.effect, if_neg (by rcases hmay with hmay | hmay <;> simp [hmay])]
    exact ⟨rfl, rfl, Stock.becomes_erase⟩
  | kept hfind hruns =>
    cases hid
    rw [hfind, Command.effect, if_pos (by simp [hruns])]
    exact ⟨rfl, rfl, Stock.becomes_self hfind⟩
  | inspected hfind =>
    cases hid
    rw [hfind]
    exact ⟨rfl, rfl, Stock.becomes_self hfind⟩

/-- To create a container there must not be another one of its name. -/
theorem Takes.creation (ht : Takes w (.create name) a w') :
    (∃ id, a = .created id ∧ (∀ j h, w.find j = some h → h.name ≠ name) ∧ ¬ w.Issued id ∧
      w' = (w.issue id).put id ⟨name, false⟩) ∨
    (a = .fault 409 ∧ (∃ j h, w.find j = some h ∧ h.name = name) ∧ w' = w) := by
  cases ht with
  | created hfree hnew => exact .inl ⟨_, rfl, hfree, hnew, rfl⟩
  | taken hfind hname => exact .inr ⟨rfl, ⟨_, _, hfind, hname⟩, rfl⟩
  | unknown hc _ => cases hc

/-! ## Agreement -/

/-- The containers of the paired identifiers are held alike, and no others are held. -/
structure Agree (pairs : List (String × String)) (w v : Stock) : Prop where
  alike : ∀ p ∈ pairs, w.find p.1 = v.find p.2
  distinct : (pairs.map Prod.fst).Nodup ∧ (pairs.map Prod.snd).Nodup
  issued : ∀ p ∈ pairs, w.Issued p.1 ∧ v.Issued p.2
  left : ∀ id h, w.find id = some h → ∃ p ∈ pairs, p.1 = id
  right : ∀ id h, v.find id = some h → ∃ p ∈ pairs, p.2 = id

namespace Agree

theorem of_empty (hw : ∀ id, w.find id = none) (hv : ∀ id, v.find id = none) : Agree [] w v where
  alike := by simp
  distinct := ⟨List.nodup_nil, List.nodup_nil⟩
  issued := by simp
  left := by
    intro id h hfind
    rw [hw] at hfind
    cases hfind
  right := by
    intro id h hfind
    rw [hv] at hfind
    cases hfind

variable (hagree : Agree pairs w v)

include hagree

theorem exists_right (hfind : w.find id = some h) : ∃ j, v.find j = some h := by
  obtain ⟨p, hp, rfl⟩ := hagree.left id h hfind
  exact ⟨p.2, (hagree.alike p hp).symm.trans hfind⟩

theorem exists_left (hfind : v.find id = some h) : ∃ j, w.find j = some h := by
  obtain ⟨p, hp, rfl⟩ := hagree.right id h hfind
  exact ⟨p.1, (hagree.alike p hp).trans hfind⟩

/-- Each side may change what it holds of one container, to the same. -/
theorem becomes {p : String × String} {x : Option Held} (hp : p ∈ pairs) (hw : w.Becomes p.1 x w')
    (hv : v.Becomes p.2 x v') : Agree pairs w' v' where
  alike := by
    intro q hq
    have hiff : q.1 = p.1 ↔ q.2 = p.2 := by
      constructor
      · intro h
        rw [List.inj_on_of_nodup_map hagree.distinct.1 hq hp h]
      · intro h
        rw [List.inj_on_of_nodup_map hagree.distinct.2 hq hp h]
    rw [hw.find, hv.find, if_congr hiff rfl (hagree.alike q hq)]
  distinct := hagree.distinct
  issued := by
    rw [hw.issued, hv.issued]
    exact hagree.issued
  left := by
    intro id h hfind
    rw [hw.find] at hfind
    split at hfind
    next hid => exact ⟨p, hp, hid.symm⟩
    next => exact hagree.left id h hfind
  right := by
    intro id h hfind
    rw [hv.find] at hfind
    split at hfind
    next hid => exact ⟨p, hp, hid.symm⟩
    next => exact hagree.right id h hfind

/-- Each side may hold another container, of an identifier that it never gave before. -/
theorem create {i j : String} (hi : ¬ w.Issued i) (hj : ¬ v.Issued j) (h : Held) :
    Agree (pairs ++ [(i, j)]) ((w.issue i).put i h) ((v.issue j).put j h) where
  alike := by
    intro q hq
    rcases List.mem_append.mp hq with hq | hq
    · have hqi : q.1 ≠ i := fun heq => hi (heq ▸ (hagree.issued q hq).1)
      have hqj : q.2 ≠ j := fun heq => hj (heq ▸ (hagree.issued q hq).2)
      rw [Stock.find_put, Stock.find_put, if_neg hqi, if_neg hqj]
      exact hagree.alike q hq
    · cases List.mem_singleton.mp hq
      simp
  distinct := by
    have hfst : i ∉ pairs.map Prod.fst := by
      intro hmem
      obtain ⟨q, hq, rfl⟩ := List.mem_map.mp hmem
      exact hi (hagree.issued q hq).1
    have hsnd : j ∉ pairs.map Prod.snd := by
      intro hmem
      obtain ⟨q, hq, rfl⟩ := List.mem_map.mp hmem
      exact hj (hagree.issued q hq).2
    simp only [List.map_append, List.map_cons, List.map_nil]
    rw [← List.concat_eq_append, ← List.concat_eq_append]
    exact ⟨List.Nodup.concat hfst hagree.distinct.1, List.Nodup.concat hsnd hagree.distinct.2⟩
  issued := by
    intro q hq
    rcases List.mem_append.mp hq with hq | hq
    · exact ⟨.inr (hagree.issued q hq).1, .inr (hagree.issued q hq).2⟩
    · cases List.mem_singleton.mp hq
      exact ⟨.inl rfl, .inl rfl⟩
  left := by
    intro id x hfind
    by_cases hid : id = i
    · exact ⟨(i, j), List.mem_append_right _ List.mem_cons_self, hid.symm⟩
    · rw [Stock.find_put, if_neg hid] at hfind
      obtain ⟨q, hq, hqid⟩ := hagree.left id x hfind
      exact ⟨q, List.mem_append_left _ hq, hqid⟩
  right := by
    intro id x hfind
    by_cases hid : id = j
    · exact ⟨(i, j), List.mem_append_right _ List.mem_cons_self, hid.symm⟩
    · rw [Stock.find_put, if_neg hid] at hfind
      obtain ⟨q, hq, hqid⟩ := hagree.right id x hfind
      exact ⟨q, List.mem_append_left _ hq, hqid⟩

end Agree

/-! ## Commands that mean the same -/

/-- The same command on both sides, about a container that each knows by its own identifier. -/
inductive Twins (pairs : List (String × String)) : Command → Command → Prop
  | create (name : String) : Twins pairs (.create name) (.create name)
  | start {p} (hp : p ∈ pairs) : Twins pairs (.start p.1) (.start p.2)
  | stop {p} (hp : p ∈ pairs) : Twins pairs (.stop p.1) (.stop p.2)
  | remove {p} (hp : p ∈ pairs) (force : Bool) : Twins pairs (.remove p.1 force) (.remove p.2 force)
  | inspect {p} (hp : p ∈ pairs) : Twins pairs (.inspect p.1) (.inspect p.2)

theorem Twins.cases (ht : Twins pairs k k') :
    (∃ name, k = .create name ∧ k' = .create name) ∨
      ∃ p ∈ pairs, k.id? = some p.1 ∧ k'.id? = some p.2 ∧ ∀ x, k.effect x = k'.effect x := by
  cases ht with
  | create name => exact .inl ⟨name, rfl, rfl⟩
  | start hp | stop hp | remove hp | inspect hp =>
    exact .inr ⟨_, hp, rfl, rfl, fun x => by cases x <;> rfl⟩

/-- A turn is the same command on both sides, if its container was created at all. -/
theorem Twins.of_turn (pairs : List (String × String)) (t : Turn) :
    (t.call? (pairs.map Prod.fst) = none ∧ t.call? (pairs.map Prod.snd) = none) ∨
      ∃ c d k k', t.call? (pairs.map Prod.fst) = some c ∧
        t.call? (pairs.map Prod.snd) = some d ∧ commandOf? c = some k ∧ commandOf? d = some k' ∧
        Twins pairs k k' := by
  have hplace : ∀ (place : Nat) (f : String → Call) (g : String → Command),
      (∀ id, commandOf? (f id) = some (g id)) → (∀ p ∈ pairs, Twins pairs (g p.1) (g p.2)) →
      ((pairs.map Prod.fst)[place]?.map f = none ∧ (pairs.map Prod.snd)[place]?.map f = none) ∨
        ∃ c d k k', (pairs.map Prod.fst)[place]?.map f = some c ∧
          (pairs.map Prod.snd)[place]?.map f = some d ∧ commandOf? c = some k ∧
          commandOf? d = some k' ∧ Twins pairs k k' := by
    intro place f g hcommand htwins
    rw [List.getElem?_map, List.getElem?_map]
    cases hp : pairs[place]? with
    | none => exact .inl ⟨rfl, rfl⟩
    | some p =>
      exact .inr ⟨f p.1, f p.2, g p.1, g p.2, rfl, rfl, hcommand _, hcommand _,
        htwins p (List.mem_of_getElem? hp)⟩
  cases t with
  | create spec => exact .inr ⟨_, _, _, _, rfl, rfl, rfl, rfl, .create spec.name⟩
  | start place => exact hplace place .start .start (fun _ => rfl) fun p => .start
  | stop place grace =>
    exact hplace place (fun id => .stop id grace) .stop (fun _ => rfl) fun p => .stop
  | remove place volumes =>
    exact hplace place (fun id => .remove id volumes) (fun id => .remove id false) (fun _ => rfl)
      fun p hp => .remove hp false
  | inspect place => exact hplace place .inspect .inspect (fun _ => rfl) fun p => .inspect

/-- The same command comes to the same in stocks that agree, and they agree after it. -/
theorem Agree.takes (hagree : Agree pairs w v) (ht : Twins pairs k k') (hw : Takes w k a w')
    (hv : Takes v k' b v') :
    a.reply = b.reply ∧ ∃ new : List (String × String), a.given = new.map Prod.fst ∧
      b.given = new.map Prod.snd ∧ Agree (pairs ++ new) w' v' := by
  rcases ht.cases with ⟨name, rfl, rfl⟩ | ⟨p, hp, hid, hid', heffect⟩
  · rcases hw.creation with ⟨i, rfl, hfree, hi, rfl⟩ | ⟨rfl, ⟨i, h, hfind, hname⟩, rfl⟩ <;>
      rcases hv.creation with ⟨j, rfl, hfree', hj, rfl⟩ | ⟨rfl, ⟨j, h', hfind', hname'⟩, rfl⟩
    · exact ⟨rfl, [(i, j)], rfl, rfl, hagree.create hi hj _⟩
    · obtain ⟨l, hl⟩ := hagree.exists_left hfind'
      exact absurd hname' (hfree l h' hl)
    · obtain ⟨l, hl⟩ := hagree.exists_right hfind
      exact absurd hname (hfree' l h hl)
    · exact ⟨rfl, [], rfl, rfl, by rwa [List.append_nil]⟩
  · obtain ⟨hreply, hgiven, hbecomes⟩ := hw.effect hid
    obtain ⟨hreply', hgiven', hbecomes'⟩ := hv.effect hid'
    rw [hagree.alike p hp, heffect] at hreply hbecomes
    refine ⟨hreply.trans hreply'.symm, [], hgiven, hgiven', ?_⟩
    rw [List.append_nil]
    exact hagree.becomes hp hbecomes hbecomes'

end HostAgent.Container.Daemon
