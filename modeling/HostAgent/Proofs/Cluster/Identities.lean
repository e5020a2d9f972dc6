import HostAgent.Proofs.Cluster.Registry
import HostAgent.Proofs.Task.Parts
import HostAgent.Proofs.Task.Run
import HostAgent.Proofs.Text.Cutting
import HostAgent.Proofs.Text.Utf8

namespace HostAgent

/-!
# Hosts that come back

A host that registers again, after a restart or from another address, is the one it was before. What
its file holds decides who it is: the first registration may make the file, and every later one
finds in it what the first one answered.
-/

open Store

namespace Uuid

theorem isBlank_digit (u : Uuid) (i : Nat) : Text.isBlank (u.digit i) = false := by
  have hdigits : ∀ k < 16, Text.isBlank (Nat.digitChar k) = false := by decide
  exact hdigits _ (Nat.mod_lt _ (by decide))

theorem isBlank_of_mem_print {u : Uuid} {c : Char} (h : c ∈ u.print) : Text.isBlank c = false := by
  have hgroup : ∀ start length, c ∈ u.group start length → Text.isBlank c = false := by
    intro start length hc
    obtain ⟨i, -, rfl⟩ := List.mem_map.mp hc
    exact u.isBlank_digit i
  simp only [print, List.mem_append, List.mem_cons] at h
  rcases h with (((h | rfl | h) | rfl | h) | rfl | h) | rfl | h
  any_goals exact hgroup _ _ h
  all_goals decide

end Uuid

namespace Identity

variable {dir path uuid : String} {octets : List UInt8} {n : Machine} {name : List UInt8}

/-! ## Identifiers -/

/-- A text that may be who a host is: not empty, and without a blank at either end. -/
structure IsIdentity (uuid : String) : Prop where
  nonempty : uuid ≠ ""
  first : ∀ c, uuid.toList.head? = some c → Text.isBlank c = false
  last : ∀ c, uuid.toList.getLast? = some c → Text.isBlank c = false

theorem isIdentity_of_octets (h : ofOctets path octets = .ok uuid) : IsIdentity uuid := by
  rw [ofOctets] at h
  split at h
  · cases h
  next s _ =>
    dsimp only at h
    split at h
    · cases h
    next hne =>
      cases h
      refine ⟨hne, fun c hc => ?_, fun c hc => ?_⟩
      · rw [Text.trim, String.toList_ofList] at hc
        exact Text.head?_trimWhile hc
      · rw [Text.trim, String.toList_ofList] at hc
        exact Text.getLast?_trimWhile hc

/-- What is written for an identifier is read as this identifier. -/
theorem ofOctets_encode (h : IsIdentity uuid) :
    ofOctets path (Text.Utf8.encode uuid) = .ok uuid := by
  have htrim : Text.trim uuid = uuid := by
    rw [Text.trim, Text.trimWhile_eq_self h.first h.last, String.ofList_toList]
  rw [ofOctets, Text.Utf8.decode?_encode]
  simp only [htrim]
  rw [if_neg h.nonempty]

theorem isIdentity_text (u : Uuid) : IsIdentity u.text where
  nonempty := by
    intro h
    have hnil := congrArg String.toList h
    rw [Uuid.text, String.toList_ofList] at hnil
    cases hnil
  first := by
    intro c hc
    rw [Uuid.text, String.toList_ofList] at hc
    exact Uuid.isBlank_of_mem_print (List.mem_of_head? hc)
  last := by
    intro c hc
    rw [Uuid.text, String.toList_ofList] at hc
    exact Uuid.isBlank_of_mem_print (List.mem_of_getLast? hc)

/-! ## One host on one machine -/

/-- Who a host is by what is at the place of its file, which is nobody as long as there is none. -/
def Place.identity (path : String) (p : Place) : Except IdentityError (Option String) :=
  match p.read with
  | .ok octets => (ofOctets path octets).map some
  | .error e => if e = .noEntry then .ok none else .error (.file "read" path (.system e))

theorem content_of_identity {p : Place} (h : p.identity path = .ok (some uuid)) :
    ∃ octets, p.content? = some octets ∧ ofOctets path octets = .ok uuid := by
  match p with
  | .absent | .blocked | .directory mode .absent | .directory mode .directory => cases h
  | .directory mode (.file octets m) =>
    rw [Place.identity, Place.read] at h
    cases hoctets : ofOctets path octets with
    | error e =>
      simp only [hoctets] at h
      cases h
    | ok u =>
      simp only [hoctets] at h
      cases h
      exact ⟨octets, rfl, hoctets⟩

theorem read_of_identity {p : Place} (h : p.identity path = .ok none) :
    p.read = .error .noEntry := by
  match p with
  | .absent | .directory mode .absent => rfl
  | .blocked | .directory mode .directory => cases h
  | .directory mode (.file octets m) =>
    rw [Place.identity, Place.read] at h
    cases hoctets : ofOctets path octets with
    | error e | ok u =>
      simp only [hoctets] at h
      cases h

/-- The identifier that a machine makes when it next has to. -/
def Machine.fresh (n : Machine) : String := (Uuid.ofRandom (n.random.headD 0)).text

/-- A machine after it made an identifier. -/
def Machine.settled (n : Machine) : Machine where
  place :=
    .directory (match n.place with | .directory mode _ => mode | _ => dirMode)
      (.file (Text.Utf8.encode n.fresh) fileMode)
  random := n.random.tail
  hostname := n.hostname

theorem content_settled (n : Machine) :
    n.settled.place.content? = some (Text.Utf8.encode n.fresh) := rfl

theorem identity_settled (n : Machine) (path : String) :
    n.settled.place.identity path = .ok (some n.fresh) := by
  have hread : n.settled.place.read = .ok (Text.Utf8.encode n.fresh) := rfl
  have hoctets : ofOctets path (Text.Utf8.encode n.fresh) = .ok n.fresh :=
    ofOctets_encode (isIdentity_text _)
  rw [Place.identity, hread]
  simp only [hoctets]
  rfl

theorem run_generate (dir path : String) {n : Machine} (h : n.place.read = .error .noEntry) :
    (generate dir path).run.run Machine.step n = (.ok n.fresh, n.settled) := by
  obtain ⟨place, random, hostname⟩ := n
  match place with
  | .absent | .directory mode .absent => rfl
  | .blocked | .directory mode .directory | .directory mode (.file octets m) => cases h

/-- What follows the reading of the file. -/
def afterRead (dir path : String) : Except Errno (List UInt8) → Op String
  | .ok octets => liftM (ofOctets path octets)
  | .error e => if e = .noEntry then generate dir path else throw (.file "read" path (.system e))

theorem loadUuid_run (dir : String) :
    (loadUuid dir).run =
      .ask (I := interface) (.read (FilePath.join dir fileName)) fun a =>
        (afterRead dir (FilePath.join dir fileName) a).run := by
  refine congrArg (Task.ask (I := interface) _) (funext fun a => ?_)
  cases a <;> rfl

theorem load_run (dir address : String) :
    (load dir address).run =
      (loadUuid dir).run.bind fun
        | .error e => .done (.error e)
        | .ok uuid =>
          .ask (I := interface) .hostname fun
            | .ok name => .done (.ok ⟨uuid, Text.Utf8.decodeLossy name, address⟩)
            | .error e => .done (.error (.hostname e)) := by
  rw [load, ExceptT.run_bind]
  refine congrArg (Task.bind (loadUuid dir).run) (funext fun r => ?_)
  match r with
  | .error e => rfl
  | .ok uuid =>
    refine congrArg (Task.ask (I := interface) _) (funext fun a => ?_)
    match a with
    | .ok name | .error e => rfl

/-- A machine says who its host is by the place of the file, and if nobody was there makes an
identifier that is found there from then on. -/
theorem run_loadUuid (dir : String) (n : Machine) :
    (loadUuid dir).run.run Machine.step n =
      match n.place.identity (FilePath.join dir fileName) with
      | .error e => (.error e, n)
      | .ok (some uuid) => (.ok uuid, n)
      | .ok none => (.ok n.fresh, n.settled) := by
  have hrun : (loadUuid dir).run.run Machine.step n =
      (afterRead dir (FilePath.join dir fileName) n.place.read).run.run Machine.step n := by
    rw [loadUuid_run]
    rfl
  rw [hrun, Place.identity]
  match hplace : n.place.read with
  | .ok octets =>
    simp only [afterRead]
    cases ofOctets (FilePath.join dir fileName) octets <;> rfl
  | .error e =>
    simp only [afterRead]
    by_cases he : e = .noEntry
    · subst he
      rw [if_pos rfl, if_pos rfl, run_generate dir _ hplace]
    · rw [if_neg he, if_neg he]
      rfl

theorem run_load (address : String) (hn : n.hostname = .ok name) :
    (load dir address).run.run Machine.step n =
      (((loadUuid dir).run.run Machine.step n).1.map fun uuid =>
        ⟨uuid, Text.Utf8.decodeLossy name, address⟩,
        ((loadUuid dir).run.run Machine.step n).2) := by
  have hhost : ((loadUuid dir).run.run Machine.step n).2.hostname = .ok name := by
    rw [run_loadUuid, ← hn]
    split <;> rfl
  rw [load_run, Task.run_bind]
  generalize (loadUuid dir).run.run Machine.step n = w at hhost ⊢
  match w with
  | (.error e, n') => rfl
  | (.ok uuid, n') =>
    have hanswer : Machine.step .hostname n' = (.ok name, n') := by
      rw [← hhost]
      rfl
    rw [Task.run_ask, hanswer]
    rfl

/-! ## Registrations -/

variable {s : Space} {m m' : Memory} {address : String}

theorem run_register_of_ok {n' : Machine} {x : Host}
    (h : (load dir address).run.run Machine.step n = (.ok x, n')) :
    (register s dir address).run.run Machine.stepWithStore (n, m) =
      (.ok x, n', m.write (s.hostKey x.uuid) (Record.text x)) := by
  rw [register_run, Task.run_bind, run_inl_withStore, h]
  rfl

theorem run_register_of_error {n' : Machine} {e : IdentityError}
    (h : (load dir address).run.run Machine.step n = (.error e, n')) :
    (register s dir address).run.run Machine.stepWithStore (n, m) =
      (.error (.identity e), n', m) := by
  rw [register_run, Task.run_bind, run_inl_withStore, h]
  rfl

/-- What each registration of a host comes to, one after another from several addresses. -/
def registrations (s : Space) (dir : String) :
    List String → Machine × Memory → List (Except AgentError Host × Machine × Memory)
  | [], _ => []
  | address :: l, w =>
    let r := (register s dir address).run.run Machine.stepWithStore w
    r :: registrations s dir l r.2

/-- A registration answered a host, left octets in its file, and made a difference to a store under
the key of this host alone, where its record is. -/
structure Registered (s : Space) (m : Memory) (octets : List UInt8) (x : Host)
    (r : Except AgentError Host × Machine × Memory) : Prop where
  answered : r.1 = .ok x
  kept : r.2.1.place.content? = some octets
  stored : (r.2.2.get? (s.hostKey x.uuid)).map Entry.value = some (Record.text x)
  others : ∀ key, key ≠ s.hostKey x.uuid → r.2.2.get? key = m.get? key

/-- One registration of a host that a file says who it is. -/
theorem registered_write {x : Host} (hplace : n.place.content? = some octets)
    (hothers : ∀ key, key ≠ s.hostKey x.uuid → m'.get? key = m.get? key) :
    Registered s m octets x (.ok x, n, m'.write (s.hostKey x.uuid) (Record.text x)) where
  answered := rfl
  kept := hplace
  stored := by
    rw [Memory.get?_write, if_pos rfl]
    rfl
  others := by
    intro key hkey
    rw [Memory.get?_write, if_neg hkey]
    exact hothers key hkey

/-- Once a file says who a host is, no registration changes the file. -/
theorem registrations_of_identity (hn : n.hostname = .ok name)
    (hidentity : n.place.identity (FilePath.join dir fileName) = .ok (some uuid))
    (hplace : n.place.content? = some octets) (addresses : List String)
    (hothers : ∀ key, key ≠ s.hostKey uuid → m'.get? key = m.get? key) :
    List.Forall₂ (fun address => Registered s m octets ⟨uuid, Text.Utf8.decodeLossy name, address⟩)
      addresses (registrations s dir addresses (n, m')) := by
  induction addresses generalizing m' with
  | nil => exact .nil
  | cons address l ih =>
    have hload : (load dir address).run.run Machine.step n =
        (.ok ⟨uuid, Text.Utf8.decodeLossy name, address⟩, n) := by
      rw [run_load address hn, run_loadUuid, hidentity]
      rfl
    have hregistered := registered_write (s := s) (m := m)
      (x := ⟨uuid, Text.Utf8.decodeLossy name, address⟩) hplace hothers
    rw [registrations, run_register_of_ok hload]
    exact .cons hregistered (ih hregistered.others)

theorem registrations_of_error {e : IdentityError} (hn : n.hostname = .ok name)
    (hidentity : n.place.identity (FilePath.join dir fileName) = .error e)
    (addresses : List String) :
    ∀ r ∈ registrations s dir addresses (n, m), r = (.error (.identity e), n, m) := by
  induction addresses with
  | nil => exact List.forall_mem_nil _
  | cons address l ih =>
    have hload : (load dir address).run.run Machine.step n = (.error e, n) := by
      rw [run_load address hn, run_loadUuid, hidentity]
      rfl
    rw [registrations, run_register_of_error hload]
    exact List.forall_mem_cons.mpr ⟨rfl, ih⟩

/-- A call is on the file of a directory or on the directory itself, if it is on any. -/
def Concerns (dir : String) : Call → Prop
  | .read path | .createFile path _ | .write path _ => path = FilePath.join dir fileName
  | .createDirs path _ => path = dir
  | .random | .hostname => True

theorem load_asks (dir address : String) : (load dir address).run.Asks (Concerns dir) := by
  have hfile : ∀ {α : Type} (op p : String) {t : Task interface (Except Errno α)},
      t.Asks (Concerns dir) → (file op p t).run.Asks (Concerns dir) := fun op p t ht => ht.map _
  have hgenerate : (generate dir (FilePath.join dir fileName)).run.Asks (Concerns dir) := by
    refine Task.Asks.bind_run (hfile _ _ (Task.asks_call rfl)) fun _ => ?_
    refine Task.Asks.bind_run (Task.asks_call trivial).lift fun bits => ?_
    refine Task.Asks.bind_run (hfile _ _ (Task.asks_call rfl)) fun _ => ?_
    exact Task.Asks.bind_run (hfile _ _ (Task.asks_call rfl)) fun _ => trivial
  have hafter : ∀ a, (afterRead dir (FilePath.join dir fileName) a).run.Asks (Concerns dir) := by
    intro a
    match a with
    | .ok octets => exact Task.asks_done _
    | .error e =>
      rw [afterRead]
      split
      · exact hgenerate
      · exact Task.asks_throw _
  rw [load_run, loadUuid_run]
  refine Task.Asks.bind ⟨rfl, hafter⟩ fun r => ?_
  match r with
  | .error e => exact Task.asks_done _
  | .ok uuid =>
    refine ⟨trivial, fun a => ?_⟩
    match a with
    | .ok name | .error e => exact Task.asks_done _

/-- The octets of a file say who a host is, and they are those that were there, or if there was no
file those of the identifier itself. -/
structure Names (path : String) (p : Place) (octets : List UInt8) (uuid : String) : Prop where
  read : ofOctets path octets = .ok uuid
  origin : p.content? = some octets ∨ p.read = .error .noEntry ∧ octets = Text.Utf8.encode uuid

/-- The registrations of a host either all fail in the same way, which leaves its file and the store
as they were, or all answer one identifier. Then the file is, after each of them, as the first one
found or made it, and the store differs in the record of this identifier alone, which has the
address of the last one. What is at the place of the file decides which. -/
theorem registrations_keep_identity (s : Space) (dir : String) (n : Machine) (m : Memory)
    {name : List UInt8} (hn : n.hostname = .ok name) (addresses : List String) :
    (∀ address, (load dir address).run.Asks (Concerns dir)) ∧
    ((∃ e, n.place.identity (FilePath.join dir fileName) = .error e ∧
        ∀ r ∈ registrations s dir addresses (n, m), r = (.error (.identity e), n, m)) ∨
      ∃ uuid octets, IsIdentity uuid ∧ Names (FilePath.join dir fileName) n.place octets uuid ∧
        List.Forall₂
          (fun address => Registered s m octets ⟨uuid, Text.Utf8.decodeLossy name, address⟩)
          addresses (registrations s dir addresses (n, m))) := by
  refine ⟨load_asks dir, ?_⟩
  match hidentity : n.place.identity (FilePath.join dir fileName) with
  | .error e => exact .inl ⟨e, rfl, registrations_of_error hn hidentity addresses⟩
  | .ok (some uuid) =>
    obtain ⟨octets, hplace, hoctets⟩ := content_of_identity hidentity
    refine .inr ⟨uuid, octets, isIdentity_of_octets hoctets, ⟨hoctets, .inl hplace⟩, ?_⟩
    exact registrations_of_identity hn hidentity hplace addresses fun _ _ => rfl
  | .ok none =>
    have hread := read_of_identity hidentity
    have hfresh : IsIdentity n.fresh := isIdentity_text _
    refine .inr ⟨n.fresh, Text.Utf8.encode n.fresh, hfresh,
      ⟨ofOctets_encode hfresh, .inr ⟨hread, rfl⟩⟩, ?_⟩
    cases addresses with
    | nil => exact .nil
    | cons address l =>
      -- The first registration makes the file, which is there for all that follow.
      have hload : (load dir address).run.run Machine.step n =
          (.ok ⟨n.fresh, Text.Utf8.decodeLossy name, address⟩, n.settled) := by
        rw [run_load address hn, run_loadUuid, hidentity]
        rfl
      have hplace := content_settled n
      have hhost : n.settled.hostname = .ok name := hn
      have hregistered := registered_write (s := s) (m := m)
        (x := ⟨n.fresh, Text.Utf8.decodeLossy name, address⟩) hplace fun _ _ => rfl
      rw [registrations, run_register_of_ok hload]
      exact .cons hregistered
        (registrations_of_identity hhost (identity_settled n _) hplace l hregistered.others)

/-- A host that starts without a file, and comes back with another address. -/
theorem registrations_keep_identity_twice :
    ∃ uuid octets, IsIdentity uuid ∧
      List.Forall₂ (fun address => Registered ⟨"/longhorn"⟩ .empty octets ⟨uuid, "node-1", address⟩)
        ["10.0.0.1:9500", "10.0.0.2:9500"]
        (registrations ⟨"/longhorn"⟩ "/etc/longhorn" ["10.0.0.1:9500", "10.0.0.2:9500"]
          (⟨.absent, [], .ok (Text.Utf8.encode "node-1")⟩, .empty)) := by
  obtain ⟨-, ⟨e, he, -⟩ | ⟨uuid, octets, hidentity, -, hregistered⟩⟩ :=
    registrations_keep_identity ⟨"/longhorn"⟩ "/etc/longhorn"
      ⟨.absent, [], .ok (Text.Utf8.encode "node-1")⟩ .empty rfl ["10.0.0.1:9500", "10.0.0.2:9500"]
  · cases he
  · rw [Text.Utf8.decodeLossy_encode] at hregistered
    exact ⟨uuid, octets, hidentity, hregistered⟩

/-- Blanks around an identifier do not count, and a file of blanks names nobody. -/
example : ofOctets "/f" (Text.Utf8.encode "\n 0f \t") = .ok "0f" ∧
    ofOctets "/f" (Text.Utf8.encode " \n") = .error (.empty "/f") ∧
    ofOctets "/f" [0x30, 0xFF] = .error (.file "read" "/f" .notText) := by
  decide +kernel

end Identity

end HostAgent
