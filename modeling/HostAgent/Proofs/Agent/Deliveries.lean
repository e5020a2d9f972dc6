import HostAgent.Proofs.Agent.Beside
import HostAgent.Proofs.Store.Deliveries
import HostAgent.Proofs.Store.MapServer

namespace HostAgent.Agent

/-!
# What is delivered for an agent

As long as no endpoint takes a request and is silent after that, an agent whose store is a cluster
of endpoints has nothing carried out twice: a volume that is said to exist already was not stored by
the call that is told so, and a volume is stored by one request.
-/

open Store Store.Etcd

variable {cl : Etcd.Cluster} {ds : List Delivery}

theorem exists_offered_of_create {a : Agent} {v : Volume} {r : Result Volume}
    (h : Comes cl (beside (a.createVolume v).run) r ds)
    (hds : ∀ d ∈ ds, d.Plausible ∧ d.Prompt) :
    ∃ b, Offered (query (.create (a.space.volumeKey v.name) (Record.text v))) cl.endpoints ds b ∧
      r = (Deed.create v).conclude a
        ((Space.dropIndex (b.bind (Etcd.stored (a.space.volumeKey v.name)))).map
          fun _ => .created) := by
  obtain ⟨x, hx, hserved⟩ := h.served hds
  rw [Deed.beside_create, Deed.call, ClientCall.task_create] at hx
  obtain ⟨k, y, rfl, hdone⟩ := Task.path_ask_done_iff.mp hx
  obtain ⟨rfl, hr⟩ := Task.path_done_iff.mp hdone
  obtain ⟨b, ds₁, ds₂, rfl, hoffered, hk, hnil⟩ :=
    Served.of_cons (c := .create (a.space.volumeKey v.name) (Record.text v)) hserved
  cases hnil
  rw [List.append_nil]
  refine ⟨b, hoffered, (Task.done.inj hr).trans ?_⟩
  rw [hk]
  rfl

theorem conclude_create_eq_alreadyExists {a : Agent} {v : Volume} {x : Except Store.Error Nat}
    {entity name : String}
    (h : .error (.alreadyExists entity name) =
      (Deed.create v).conclude a ((Space.dropIndex x).map fun _ => .created)) :
    ∃ e, x = .error e ∧ e.isConflict = true := by
  rcases x with e | k
  · cases e with
    | conflict key => exact ⟨_, rfl, rfl⟩
    | http | json | backend | unavailable => cases h
  · cases h

theorem conclude_create_eq_ok {a : Agent} {v u : Volume} {x : Except Store.Error Nat}
    (h : .ok u = (Deed.create v).conclude a ((Space.dropIndex x).map fun _ => .created)) :
    ∃ k, x = .ok k := by
  rcases x with e | k
  · cases e <;> cases h
  · exact ⟨k, rfl⟩

/-- Over every list of endpoints and whatever each of them does, if only none takes a request and is
silent after that: a call is delivered to the first endpoint in order that takes it and to no other,
and comes to nothing reachable only if none does; a volume is reported as existing only if it was
not stored, and as created only if it was stored once; and a change that succeeds was made once of
one record that was read. -/
theorem requests_delivered_once (cl : Etcd.Cluster) :
    (∀ (c : Store.Call) (a : c.Answer) (ds : List Delivery),
      Task.Path (answer cl c) (ds.map Delivery.exchange) (.done a) →
      (∀ d ∈ ds, d.Plausible ∧ d.Prompt) → Orderly cl c a ds) ∧
    (∀ (g : Agent) (v : Volume) (r : Result Volume) (ds : List Delivery),
      Comes cl (beside (g.createVolume v).run) r ds →
      (∀ d ∈ ds, d.Plausible ∧ d.Prompt) →
        (∀ entity name, r = .error (.alreadyExists entity name) →
          ∀ d ∈ ds, d.carriedOut = false) ∧
        ∀ u, r = .ok u → ∃ p d, ds = p ++ [d] ∧ d.carriedOut = true ∧
          d.IsFor cl (.create (g.space.volumeKey v.name) (Record.text v)) ∧
          ∀ d' ∈ p, d'.carriedOut = false) ∧
    ∀ (M : Interface) (s : Space) (name : String) (mutate : Volume → Task M Volume) (v : Volume)
      (ds : List Delivery),
      Comes cl (s.changeVolume name mutate).run (.ok (some v)) ds →
      (∀ d ∈ ds, d.Plausible ∧ d.Prompt) →
        ∃ p read q write, ds = p ++ read :: (q ++ [write]) ∧
          Changed cl (s.volumeKey name) mutate v p read q write := by
  refine ⟨fun c a ds h hds => ?_, fun g v r ds h hds => ?_, fun M s name mutate v ds h hds => ?_⟩
  · obtain ⟨b, hoffered, rfl⟩ := exists_offered h hds
    exact hoffered.orderly fun d hd => (hds d hd).1
  · have hseen : ∀ d ∈ ds, d.Plausible := fun d hd => (hds d hd).1
    obtain ⟨b, hoffered, hr⟩ := exists_offered_of_create h hds
    refine ⟨fun entity name hexists => ?_, fun u hok => ?_⟩
    · rw [hexists] at hr
      obtain ⟨e, hb, he⟩ := conclude_create_eq_alreadyExists hr
      exact hoffered.not_carriedOut_of_stored hseen hb (.inl he)
    · rw [hok] at hr
      obtain ⟨k, hb⟩ := conclude_create_eq_ok hr
      obtain ⟨p, d, rfl, hd, hp⟩ := hoffered.carriedOut_of_stored hseen hb
      exact ⟨p, d, rfl, hd, hoffered.exists_sent (by simp), hp⟩
  · obtain ⟨x, hx, hserved⟩ := h.served hds
    exact hserved.changed (fun d hd => (hds d hd).1) hx

/-! ### Two endpoints -/

section Two

open Keys

def twoEndpoints : Etcd.Cluster := clusterOf [firstEndpoint, secondEndpoint]

/-- The first endpoint is left for the second one, which answers. -/
theorem path_second {c : Store.Call} {r r' : Http.Request} (o : Http.Outcome)
    (ho : o = .refused ∨ o = .timedOut) (response : Http.Response)
    (hr : (query c).request (Text.trimSlashes firstEndpoint.text) = .ok r)
    (hr' : (query c).request (Text.trimSlashes secondEndpoint.text) = .ok r') :
    Task.Path (answer twoEndpoints c) [⟨r, o⟩, ⟨r', .answered response⟩]
      (.done (conclude c (.ok response))) := by
  refine path_answer_iff.mpr ⟨_, ?_, rfl⟩
  change Task.Path (sendFrom (query c) [_, _] none).run _ _
  rw [sendFrom_cons hr]
  rcases ho with rfl | rfl
  all_goals
    refine .cons _ ?_
    rw [sendFrom_cons hr']
    exact .cons _ (.nil _)

/-- The first endpoint takes no connection, and the second one carries out what it answers with
success. -/
def fromSecond (r r' : Http.Request) (response : Http.Response) : List Delivery :=
  [⟨r, .refused, false, false⟩, ⟨r', .answered response, true, response.isSuccess⟩]

theorem plausible_fromSecond (r r' : Http.Request) (response : Http.Response) :
    ∀ d ∈ fromSecond r r' response, d.Plausible ∧ d.Prompt := by
  intro d hd
  simp only [fromSecond, List.mem_cons, List.not_mem_nil, or_false] at hd
  rcases hd with rfl | rfl
  · exact ⟨⟨fun _ => rfl, nofun, nofun, nofun, nofun, fun _ => rfl⟩, fun _ => rfl⟩
  · refine ⟨⟨nofun, fun _ => rfl, fun _ _ => rfl, ?_, ?_, nofun⟩, nofun⟩
    · rintro _ ⟨⟩ hr
      exact hr
    · rintro _ ⟨⟩ hr
      exact hr.1

def small : Volume := ⟨"vol", 1024, "engine", .empty⟩

def grown : Volume := { small with size := 2048 }

/-- A server that has stored the volume. -/
def shelved : Shelf := (Shelf.empty 6).write "/volumes/vol" (Record.text small)

theorem find_shelved (j : String) :
    shelved.tree.find j = if j = "/volumes/vol" then some (.record ⟨Record.text small, 7⟩)
      else if Below j "/volumes/vol" then some .directory else none := by
  rw [shelved, Shelf.tree_write, Tree.find_write]
  rfl

theorem get?_shelved :
    shelved.contents.get? "/volumes/vol" = some (.record ⟨Record.text small, 7⟩) :=
  (find_shelved "/volumes/vol").trans (if_pos rfl)

theorem admits_shelved :
    shelved.tree.find "/volumes/vol" ≠ some .directory ∧
      ∀ dir e, Below dir "/volumes/vol" → shelved.tree.find dir ≠ some (.record e) := by
  refine ⟨by simp [find_shelved], fun dir e hbelow => ?_⟩
  have hne : dir ≠ "/volumes/vol" := by
    rintro rfl
    exact absurd hbelow (by decide)
  simp [find_shelved, hne, hbelow]

theorem conclude_shelved {c : Store.Call} {a : Keys.Answer} (h : shelved.tree.Admits c)
    (ha : (shelved.take (asked c)).1 = a) : conclude c (.ok a.response) = made c a := by
  have htakes := shelved.takes h
  have hindex : (shelved.take (asked c)).2.index < wordLimit := by
    have hstep := shelved.index_take (asked c)
    have hseven : shelved.index = 7 := rfl
    unfold wordLimit
    omega
  have hreadable := readable_of_takes htakes shelved.bounded hindex
  subst ha
  exact conclude_of_said htakes (saidBy_response htakes hreadable) hreadable

theorem conclude_create_shelved (value : String) :
    conclude (.create "/volumes/vol" value) (.ok (Keys.Answer.fault 412 105).response) =
      .error (.conflict "/volumes/vol") :=
  conclude_shelved admits_shelved (congrArg Prod.fst
    (Shelf.take_put_refused (by rw [get?_shelved]; rfl)))

theorem conclude_get_shelved :
    conclude (.get "/volumes/vol")
        (.ok (Keys.Answer.node "/volumes/vol" ⟨Record.text small, 7⟩).response) =
      .ok (some ⟨Record.text small, 7⟩) := by
  refine conclude_shelved admits_shelved ?_
  simp only [asked, Shelf.take, get?_shelved]

theorem conclude_compareAndSet_shelved (value : String) :
    conclude (.compareAndSet "/volumes/vol" value 7)
        (.ok (Keys.Answer.node "/volumes/vol" ⟨value, 8⟩).response) = .ok 8 := by
  refine conclude_shelved admits_shelved (congrArg Prod.fst (Shelf.take_put ?_))
  rw [get?_shelved]
  exact Shelf.refusal?_current

theorem isKey_vol : IsKey "/volumes/vol" :=
  ⟨["volumes", "vol"], by decide, by decide, by decide⟩

/-- A call on the volume that the second endpoint answers. -/
theorem exists_fromSecond {c : Store.Call} (hc : c.key = "/volumes/vol")
    (response : Http.Response) :
    ∃ ds : List Delivery, Task.Path (answer twoEndpoints c) (ds.map Delivery.exchange)
        (.done (conclude c (.ok response))) ∧
      ∀ d ∈ ds, d.Plausible ∧ d.Prompt := by
  have hkey : IsKey c.key := by
    rw [hc]
    exact isKey_vol
  obtain ⟨r, hr, -⟩ := exists_request firstEndpoint c hkey
  obtain ⟨r', hr', -⟩ := exists_request secondEndpoint c hkey
  exact ⟨fromSecond r r' response, path_second .refused (.inl rfl) response hr hr',
    plausible_fromSecond r r' response⟩

def clerk : Agent := ⟨default, ⟨""⟩, default, "engine"⟩

theorem comes_create {ds : List Delivery}
    (h : Task.Path (answer twoEndpoints (.create "/volumes/vol" (Record.text small)))
      (ds.map Delivery.exchange) (.done (.error (.conflict "/volumes/vol")))) :
    Comes twoEndpoints (beside (clerk.createVolume small).run)
      (.error (.alreadyExists "volume" "vol")) ds := by
  rw [Deed.beside_create, Deed.call, ClientCall.task_create, ← List.append_nil ds]
  exact .ask h .done

theorem comes_change {ds ds' : List Delivery}
    (hread : Task.Path (answer twoEndpoints (.get "/volumes/vol")) (ds.map Delivery.exchange)
      (.done (.ok (some ⟨Record.text small, 7⟩))))
    (hwrite : Task.Path (answer twoEndpoints (.compareAndSet "/volumes/vol" (Record.text grown) 7))
      (ds'.map Delivery.exchange) (.done (.ok 8))) :
    Comes twoEndpoints
      (clerk.space.changeVolume "vol" fun _ => (.done grown : Task Interface.nothing Volume)).run
      (.ok (some grown)) (ds ++ ds') := by
  rw [Space.changeVolume, Space.maxRounds, Space.changeRounds_succ, ← List.append_nil ds']
  refine .ask hread ?_
  rw [Space.afterRead_text]
  exact .ask hwrite .done

theorem requests_delivered_once_second :
    ∃ ds₁ ds₂ ds₃ ds₄ : List Delivery,
      Task.Path (answer twoEndpoints (.get "/volumes/vol")) (ds₁.map Delivery.exchange)
        (.done (.ok (some ⟨Record.text small, 7⟩))) ∧
      Orderly twoEndpoints (.get "/volumes/vol") (.ok (some ⟨Record.text small, 7⟩)) ds₁ ∧
      Comes twoEndpoints (beside (clerk.createVolume small).run)
        (.error (.alreadyExists "volume" "vol")) ds₂ ∧
      (∀ d ∈ ds₂, d.carriedOut = false) ∧
      Comes twoEndpoints
        (clerk.space.changeVolume "vol" fun _ => (.done grown : Task Interface.nothing Volume)).run
        (.ok (some grown)) (ds₃ ++ ds₄) ∧
      ∃ p read q write, ds₃ ++ ds₄ = p ++ read :: (q ++ [write]) ∧
        Changed twoEndpoints "/volumes/vol" (fun _ => (.done grown : Task Interface.nothing Volume))
          grown p read q write := by
  obtain ⟨horderly, hcreate, hchange⟩ := requests_delivered_once twoEndpoints
  obtain ⟨ds₁, hpath₁, hds₁⟩ := exists_fromSecond (c := .get "/volumes/vol") rfl
    (Keys.Answer.node "/volumes/vol" ⟨Record.text small, 7⟩).response
  obtain ⟨ds₂, hpath₂, hds₂⟩ := exists_fromSecond (c := .create "/volumes/vol" (Record.text small))
    rfl (Keys.Answer.fault 412 105).response
  obtain ⟨ds₃, hpath₃, hds₃⟩ :=
    exists_fromSecond (c := .compareAndSet "/volumes/vol" (Record.text grown) 7) rfl
      (Keys.Answer.node "/volumes/vol" ⟨Record.text grown, 8⟩).response
  rw [conclude_get_shelved] at hpath₁
  rw [conclude_create_shelved] at hpath₂
  rw [conclude_compareAndSet_shelved] at hpath₃
  have hexists := comes_create hpath₂
  have hchanged := comes_change hpath₁ hpath₃
  exact ⟨ds₁, ds₂, ds₁, ds₃, hpath₁, horderly _ _ _ hpath₁ hds₁, hexists,
    (hcreate _ _ _ _ hexists hds₂).1 _ _ rfl, hchanged,
    hchange _ _ _ _ _ _ hchanged (List.forall_mem_append.mpr ⟨hds₁, hds₃⟩)⟩

theorem unaskable_create :
    (query (.create "/volumes/vol" (Record.text small))).request "not a url" =
      .error (.badAddress none) := by
  have haddress : Http.address? ("not a url" ++ "/v2/keys" ++ "/volumes/vol") =
      .error (.badAddress none) := by decide +kernel
  rw [Query.request, query_key, Call.key, haddress]
  rfl

/-- The first endpoint stores a volume and is silent after that, and the second one says that there
is such a volume: the call that has stored it reports that it exists already. And an endpoint
without an address keeps a request from the one behind it that would take it. -/
theorem stored_volume_reported_existing :
    (∃ ds : List Delivery, Comes twoEndpoints (beside (clerk.createVolume small).run)
        (.error (.alreadyExists "volume" "vol")) ds ∧
      (∀ d ∈ ds, d.Plausible) ∧ ds.map Delivery.taken = [true, true] ∧
      ds.map Delivery.carriedOut = [true, false]) ∧
    Task.Path (answer ⟨["not a url", Text.trimSlashes secondEndpoint.text]⟩
      (.create "/volumes/vol" (Record.text small))) []
      (.done (.error (.http (.badAddress none)))) ∧
    ∃ r, (query (.create "/volumes/vol" (Record.text small))).request
      (Text.trimSlashes secondEndpoint.text) = .ok r := by
  have hkey : IsKey (Store.Call.create "/volumes/vol" (Record.text small)).key := isKey_vol
  obtain ⟨r, hr, -⟩ := exists_request firstEndpoint _ hkey
  obtain ⟨r', hr', -⟩ := exists_request secondEndpoint _ hkey
  refine ⟨?_, ?_, r', hr'⟩
  · have hpath := path_second .timedOut (.inr rfl) (Keys.Answer.fault 412 105).response hr hr'
    rw [conclude_create_shelved] at hpath
    refine ⟨[⟨r, .timedOut, true, true⟩,
      ⟨r', .answered (Keys.Answer.fault 412 105).response, true, false⟩], comes_create hpath, ?_,
      rfl, rfl⟩
    refine List.forall_mem_cons.mpr ⟨?_, List.forall_mem_cons.mpr ⟨?_, by simp⟩⟩
    · exact ⟨nofun, nofun, nofun, nofun, nofun, nofun⟩
    · refine ⟨nofun, nofun, fun _ _ => rfl, ?_, fun _ _ _ => rfl, nofun⟩
      rintro _ ⟨⟩ hr
      cases hr
  · refine path_answer_iff.mpr ⟨.error (.http (.badAddress none)), ?_, rfl⟩
    change Task.Path (sendFrom (query _) [_, _] none).run _ _
    rw [sendFrom_unaskable _ _ unaskable_create]
    exact .nil _

end Two

end HostAgent.Agent
