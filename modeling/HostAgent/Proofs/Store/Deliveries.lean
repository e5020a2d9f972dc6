import HostAgent.Proofs.Store.Change
import HostAgent.Proofs.Store.KeyResults
import HostAgent.Proofs.Task.Parts

namespace HostAgent.Store.Etcd

/-!
# Deliveries

A request is offered to the endpoints of a cluster in their order. The client cannot tell an
endpoint that takes no connection from one that took the request, carried it out and was silent
after that. Where no endpoint is silent like that, the first one that takes the request is the last
one that is asked.
-/

/-- A request that was sent to an endpoint, what the client saw of it, and what became of it
there. -/
structure Delivery where
  request : Http.Request
  outcome : Http.Outcome
  /-- The endpoint took the connection. -/
  taken : Bool
  carriedOut : Bool

namespace Delivery

def exchange (d : Delivery) : Exchange Http.interface := ⟨d.request, d.outcome⟩

/-- What the client saw is not at odds with what became of the request. Of a request that was not
answered in time nothing is known. -/
structure Plausible (d : Delivery) : Prop where
  refused : d.outcome = .refused → d.taken = false
  closed : d.outcome = .closed → d.taken = true
  answered : ∀ r, d.outcome = .answered r → d.taken = true
  succeeded : ∀ r, d.outcome = .answered r → r.isSuccess = true → d.carriedOut = true
  denied : ∀ r, d.outcome = .answered r → Denies r → d.carriedOut = false
  untaken : d.taken = false → d.carriedOut = false

/-- An endpoint that takes a request is not silent for so long that it is left. -/
def Prompt (d : Delivery) : Prop := d.outcome = .timedOut → d.taken = false

end Delivery

/-! ## One request -/

/-- What becomes of a request that is offered to endpoints one after the other. -/
inductive Offered (q : Query) : List String → List Delivery → Except Error Http.Response → Prop
  | exhausted (m : String) : Offered q [] [] (.error (.unavailable m))
  | unaskable {e : String} {es : List String} {f : Http.Failure} (h : q.request e = .error f) :
    Offered q (e :: es) [] (.error (.http f))
  | answered {e : String} {es : List String} {d : Delivery} {r : Http.Response}
    (hsent : q.request e = .ok d.request) (htaken : d.taken = true)
    (hanswer : d.outcome = .answered r) : Offered q (e :: es) [d] (.ok r)
  | closed {e : String} {es : List String} {d : Delivery} (hsent : q.request e = .ok d.request)
    (htaken : d.taken = true) (f : Http.Failure) : Offered q (e :: es) [d] (.error (.http f))
  | passed {e : String} {es : List String} {d : Delivery} {ds : List Delivery}
    {b : Except Error Http.Response} (hsent : q.request e = .ok d.request)
    (htaken : d.taken = false) (h : Offered q es ds b) : Offered q (e :: es) (d :: ds) b

theorem sendFrom_nil (q : Query) (last : Option Http.Failure) :
    ∃ m, (sendFrom q [] last).run = .done (.error (.unavailable m)) := ⟨_, rfl⟩

theorem sendFrom_unaskable {q : Query} {e : String} {f : Http.Failure} (es : List String)
    (last : Option Http.Failure) (h : q.request e = .error f) :
    (sendFrom q (e :: es) last).run = .done (.error (.http f)) := by
  rw [sendFrom, h]
  rfl

theorem offered_of_path {q : Query} {es : List String} {last : Option Http.Failure}
    {ds : List Delivery} {b : Except Error Http.Response}
    (h : Task.Path (sendFrom q es last).run (ds.map Delivery.exchange) (.done b))
    (hds : ∀ d ∈ ds, d.Plausible ∧ d.Prompt) : Offered q es ds b := by
  induction es generalizing last ds with
  | nil =>
    obtain ⟨m, hm⟩ := sendFrom_nil q last
    rw [hm] at h
    obtain ⟨hnil, hb⟩ := Task.path_done_iff.mp h
    obtain rfl := List.map_eq_nil_iff.mp hnil
    cases hb
    exact .exhausted m
  | cons e es ih =>
    cases hr : q.request e with
    | error f =>
      rw [sendFrom_unaskable es last hr] at h
      obtain ⟨hnil, hb⟩ := Task.path_done_iff.mp h
      obtain rfl := List.map_eq_nil_iff.mp hnil
      cases hb
      exact .unaskable hr
    | ok r =>
      rw [sendFrom_cons hr] at h
      obtain ⟨o, l, hl, hnext⟩ := Task.path_ask_done_iff.mp h
      obtain ⟨d, ds, rfl, hd, rfl⟩ := List.map_eq_cons_iff.mp hl
      obtain ⟨⟨hseen, hprompt⟩, hrest⟩ := List.forall_mem_cons.mp hds
      cases hd
      cases ho : d.outcome with
      | answered response =>
        rw [ho] at hnext
        obtain ⟨hnil, hb⟩ := Task.path_done_iff.mp hnext
        obtain rfl := List.map_eq_nil_iff.mp hnil
        cases hb
        exact .answered hr (hseen.answered response ho) ho
      | closed =>
        rw [ho] at hnext
        obtain ⟨hnil, hb⟩ := Task.path_done_iff.mp hnext
        obtain rfl := List.map_eq_nil_iff.mp hnil
        cases hb
        exact .closed hr (hseen.closed ho) _
      | refused =>
        rw [ho] at hnext
        exact .passed hr (hseen.refused ho) (ih hnext hrest)
      | timedOut =>
        rw [ho] at hnext
        exact .passed hr (hprompt ho) (ih hnext hrest)

namespace Offered

variable {q : Query} {es : List String} {ds : List Delivery} {b : Except Error Http.Response}

theorem sent (h : Offered q es ds b) :
    List.Forall₂ (fun d e => q.request e = .ok d.request) ds (es.take ds.length) := by
  induction h with
  | exhausted | unaskable => exact .nil
  | answered hsent | closed hsent => exact .cons hsent .nil
  | passed hsent _ _ ih => exact .cons hsent ih

theorem exists_sent (h : Offered q es ds b) {d : Delivery} (hd : d ∈ ds) :
    ∃ e ∈ es, q.request e = .ok d.request := by
  induction h with
  | exhausted | unaskable => cases hd
  | answered hsent | closed hsent =>
    obtain rfl := List.mem_singleton.mp hd
    exact ⟨_, List.mem_cons_self, hsent⟩
  | passed hsent _ _ ih =>
    rcases List.mem_cons.mp hd with rfl | hd
    · exact ⟨_, List.mem_cons_self, hsent⟩
    · obtain ⟨e, he, hsent⟩ := ih hd
      exact ⟨e, List.mem_cons_of_mem _ he, hsent⟩

/-- Nothing is sent after a request that was taken. -/
theorem once (h : Offered q es ds b) : ds.Pairwise fun d _ => d.taken = false := by
  induction h with
  | exhausted | unaskable => exact .nil
  | answered | closed => exact List.pairwise_singleton _ _
  | passed _ htaken _ ih => exact .cons (fun _ _ => htaken) ih

theorem of_unavailable {m : String} (h : Offered q es ds (.error (.unavailable m))) :
    ds.length = es.length ∧ ∀ d ∈ ds, d.taken = false := by
  generalize hb : (.error (.unavailable m) : Except Error Http.Response) = b at h
  induction h with
  | exhausted => simp
  | unaskable | answered | closed => cases hb
  | passed _ htaken _ ih =>
    obtain ⟨hlength, hall⟩ := ih hb
    exact ⟨congrArg (· + 1) hlength, List.forall_mem_cons.mpr ⟨htaken, hall⟩⟩

theorem unavailable_of_untaken (h : Offered q es ds b) (hds : ∀ d ∈ ds, d.taken = false)
    (hes : ∀ e ∈ es, ∃ r, q.request e = .ok r) : ∃ m, b = .error (.unavailable m) := by
  induction h with
  | exhausted m => exact ⟨m, rfl⟩
  | unaskable h =>
    obtain ⟨r, hr⟩ := hes _ List.mem_cons_self
    rw [h] at hr
    cases hr
  | answered _ htaken | closed _ htaken =>
    rw [hds _ List.mem_cons_self] at htaken
    cases htaken
  | passed _ _ _ ih =>
    exact ih (fun d hd => hds d (List.mem_cons_of_mem _ hd)) fun e he =>
      hes e (List.mem_cons_of_mem _ he)

theorem error_cases {e : Error} (h : Offered q es ds (.error e)) :
    (∃ f, e = .http f) ∨ ∃ m, e = .unavailable m := by
  generalize hb : (.error e : Except Error Http.Response) = b at h
  induction h with
  | exhausted m =>
    cases hb
    exact .inr ⟨m, rfl⟩
  | unaskable | closed =>
    cases hb
    exact .inl ⟨_, rfl⟩
  | answered => cases hb
  | passed _ _ _ ih => exact ih hb

/-- A response is that of the last endpoint that was asked, and no other one took the request. -/
theorem last {r : Http.Response} (h : Offered q es ds (.ok r)) :
    ∃ p d, ds = p ++ [d] ∧ d.outcome = .answered r ∧ ∀ d' ∈ p, d'.taken = false := by
  generalize hb : (.ok r : Except Error Http.Response) = b at h
  induction h with
  | exhausted | unaskable | closed => cases hb
  | answered _ _ hanswer =>
    cases hb
    exact ⟨[], _, rfl, hanswer, by simp⟩
  | @passed e es d ds b _ htaken _ ih =>
    obtain ⟨p, d', rfl, hanswer, hp⟩ := ih hb
    exact ⟨d :: p, d', rfl, hanswer, List.forall_mem_cons.mpr ⟨htaken, hp⟩⟩

theorem last_carriedOut {r : Http.Response} (h : Offered q es ds (.ok r))
    (hds : ∀ d ∈ ds, d.Plausible) (hr : r.isSuccess = true) :
    ∃ p d, ds = p ++ [d] ∧ d.carriedOut = true ∧ ∀ d' ∈ p, d'.carriedOut = false := by
  obtain ⟨p, d, rfl, hanswer, hp⟩ := h.last
  refine ⟨p, d, rfl, (hds d (by simp)).succeeded r hanswer hr, fun d' hd' => ?_⟩
  exact (hds d' (List.mem_append_left _ hd')).untaken (hp d' hd')

theorem not_carriedOut {r : Http.Response} (h : Offered q es ds (.ok r))
    (hds : ∀ d ∈ ds, d.Plausible) (hr : Denies r) : ∀ d ∈ ds, d.carriedOut = false := by
  obtain ⟨p, d, rfl, hanswer, hp⟩ := h.last
  intro d' hd'
  rcases List.mem_append.mp hd' with hd' | hd'
  · exact (hds d' (List.mem_append_left _ hd')).untaken (hp d' hd')
  · obtain rfl := List.mem_singleton.mp hd'
    exact (hds d' (by simp)).denied r hanswer hr

end Offered

/-! ## One call -/

theorem request_method {q : Query} {e : String} {r : Http.Request} (h : q.request e = .ok r) :
    r.method = q.method := by
  cases hu : Http.address? (e ++ "/v2/keys" ++ q.key) with
  | error f =>
    rw [Query.request, hu] at h
    cases h
  | ok u =>
    rw [request_of_address hu] at h
    cases h
    rw [Query.requestAt]
    split <;> rfl

/-- The requests of a call that has come to an end: each endpoint is asked in its turn until one
takes the request, and that one is the last. -/
structure Orderly (cl : Cluster) (c : Call) (a : c.Answer) (ds : List Delivery) : Prop where
  sent : List.Forall₂ (fun d e => (query c).request e = .ok d.request) ds
    (cl.endpoints.take ds.length)
  once : ds.Pairwise fun d _ => d.taken = false ∧ d.carriedOut = false
  unavailable : ∀ m, a = c.failed (.unavailable m) →
    ds.length = cl.endpoints.length ∧ ∀ d ∈ ds, d.taken = false
  /-- Where every endpoint has an address, the search ends without success only behind the last. -/
  exhausted : (∀ e ∈ cl.endpoints, ∃ r, (query c).request e = .ok r) →
    (∀ d ∈ ds, d.taken = false) →
      ds.length = cl.endpoints.length ∧ ∃ m, a = c.failed (.unavailable m)

section Calls

variable {cl : Cluster} {c : Call} {ds : List Delivery} {b : Except Error Http.Response}

theorem exists_offered {a : c.Answer}
    (h : Task.Path (answer cl c) (ds.map Delivery.exchange) (.done a))
    (hds : ∀ d ∈ ds, d.Plausible ∧ d.Prompt) :
    ∃ b, Offered (query c) cl.endpoints ds b ∧ a = conclude c b := by
  obtain ⟨b, hsend, rfl⟩ := path_answer_iff.mp h
  exact ⟨b, offered_of_path hsend hds, rfl⟩

theorem Offered.orderly (h : Offered (query c) cl.endpoints ds b) (hds : ∀ d ∈ ds, d.Plausible) :
    Orderly cl c (conclude c b) ds where
  sent := h.sent
  once := by
    refine h.once.imp_of_mem fun hd _ htaken => ⟨htaken, (hds _ hd).untaken htaken⟩
  unavailable m ha := by
    rcases b with e | r
    · rcases h.error_cases with ⟨f, rfl⟩ | ⟨m, rfl⟩
      · rw [conclude_http] at ha
        exact absurd ha (by cases c <;> nofun)
      · exact h.of_unavailable
    · exact absurd ha (conclude_ne_unavailable c)
  exhausted hes hall := by
    obtain ⟨m, rfl⟩ := h.unavailable_of_untaken hall hes
    exact ⟨h.of_unavailable.1, m, conclude_unavailable c m⟩

/-- A call that came to a number was carried out by the endpoint that was asked last. -/
theorem Offered.carriedOut_of_stored (h : Offered (query c) cl.endpoints ds b)
    (hds : ∀ d ∈ ds, d.Plausible) {key : String} {i : Nat} (hb : b.bind (stored key) = .ok i) :
    ∃ p d, ds = p ++ [d] ∧ d.carriedOut = true ∧ ∀ d' ∈ p, d'.carriedOut = false := by
  rcases b with e | r
  · cases hb
  · rcases stored_cases key r with ⟨-, -, hr⟩ | hdecoding | ⟨herror, -⟩
    · exact h.last_carriedOut hds hr
    · cases hb.symm.trans hdecoding
    · cases hb.symm.trans herror

/-- A write that came to a conflict was carried out by no endpoint. -/
theorem Offered.not_carriedOut_of_stored (h : Offered (query c) cl.endpoints ds b)
    (hds : ∀ d ∈ ds, d.Plausible) {key : String} {e : Error}
    (hb : b.bind (stored key) = .error e)
    (he : e.isConflict = true ∨ ∃ m, e = .backend 404 m) : ∀ d ∈ ds, d.carriedOut = false := by
  rcases b with f | r
  · cases hb
    rcases h.error_cases with ⟨f, rfl⟩ | ⟨m, rfl⟩ <;> rcases he with he | ⟨m, he⟩ <;> cases he
  · exact h.not_carriedOut hds (denies_of_stored hb he)

end Calls

/-! ## One call after the other -/

/-- The deliveries that calls come to which are made one after the other. -/
inductive Served (cl : Cluster) : List (Exchange Store.interface) → List Delivery → Prop
  | nil : Served cl [] []
  | cons {c : Call} {b : Except Error Http.Response} {l : List (Exchange Store.interface)}
    {ds ds' : List Delivery} (h : Offered (query c) cl.endpoints ds b) (h' : Served cl l ds') :
    Served cl (⟨c, conclude c b⟩ :: l) (ds ++ ds')

namespace Served

variable {cl : Cluster} {l l' : List (Exchange Store.interface)} {ds : List Delivery}

theorem of_carried {y : List (Exchange Http.interface)} (h : Task.Carried (answer cl) l y)
    (hy : y = ds.map Delivery.exchange) (hds : ∀ d ∈ ds, d.Plausible ∧ d.Prompt) :
    Served cl l ds := by
  induction h generalizing ds with
  | nil =>
    obtain rfl := List.map_eq_nil_iff.mp hy.symm
    exact .nil
  | cons hc _ ih =>
    obtain ⟨ds₁, ds₂, rfl, rfl, rfl⟩ := List.map_eq_append_iff.mp hy.symm
    obtain ⟨h₁, h₂⟩ := List.forall_mem_append.mp hds
    obtain ⟨b, hoffered, rfl⟩ := exists_offered hc h₁
    exact .cons hoffered (ih rfl h₂)

theorem of_append (h : Served cl (l ++ l') ds) :
    ∃ ds₁ ds₂, ds = ds₁ ++ ds₂ ∧ Served cl l ds₁ ∧ Served cl l' ds₂ := by
  induction l generalizing ds with
  | nil => exact ⟨[], ds, rfl, .nil, h⟩
  | cons x l ih =>
    cases h with
    | @cons c b _ ds₁ _ hx hrest =>
      obtain ⟨ds₂, ds₃, rfl, h₂, h₃⟩ := ih hrest
      exact ⟨ds₁ ++ ds₂, ds₃, by simp, .cons hx h₂, h₃⟩

theorem of_cons {c : Call} {a : c.Answer} (h : Served cl (⟨c, a⟩ :: l) ds) :
    ∃ b ds₁ ds₂, ds = ds₁ ++ ds₂ ∧ Offered (query c) cl.endpoints ds₁ b ∧ a = conclude c b ∧
      Served cl l ds₂ := by
  cases h with
  | cons hc hrest => exact ⟨_, _, _, rfl, hc, rfl, hrest⟩

theorem exists_call (h : Served cl l ds) {d : Delivery} (hd : d ∈ ds) :
    ∃ c b ds', ⟨c, conclude c b⟩ ∈ l ∧ Offered (query c) cl.endpoints ds' b ∧ d ∈ ds' ∧
      ds' ⊆ ds := by
  induction h with
  | nil => cases hd
  | @cons c b l ds₁ ds₂ hc _ ih =>
    rcases List.mem_append.mp hd with hd | hd
    · exact ⟨c, b, ds₁, List.mem_cons_self, hc, hd, List.subset_append_left _ _⟩
    · obtain ⟨c', b', ds', hmem, hoffered, hd', hsub⟩ := ih hd
      exact ⟨c', b', ds', List.mem_cons_of_mem _ hmem, hoffered, hd',
        List.Subset.trans hsub (List.subset_append_right _ _)⟩

end Served

/-- A task comes to a value where its calls on the store are sent to a cluster, with these
deliveries. -/
def Comes {M : Interface} {α : Type} (cl : Cluster) (t : Task (Store.interface.sum M) α) (a : α)
    (ds : List Delivery) : Prop :=
  ∃ l, Task.Path (t.onFirst (answer cl)) l (.done a) ∧ Task.firsts l = ds.map Delivery.exchange

namespace Comes

variable {M : Interface} {α : Type} {cl : Cluster} {a : α} {ds ds' : List Delivery}

theorem done : Comes (M := M) cl (.done a) a [] := ⟨[], .nil _, rfl⟩

theorem ask {c : Call} {next : c.Answer → Task (Store.interface.sum M) α} {b : c.Answer}
    (h : Task.Path (answer cl c) (ds.map Delivery.exchange) (.done b))
    (h' : Comes cl (next b) a ds') :
    Comes cl (.ask (I := Store.interface.sum M) (.inl c) next) a (ds ++ ds') := by
  obtain ⟨l, hl, hfirsts⟩ := h'
  obtain ⟨l', hl', hfirsts'⟩ :=
    Task.path_inl_append h (f := fun b => (next b).onFirst (answer cl)) hl
  exact ⟨l', hl', by rw [hfirsts', hfirsts, List.map_append]⟩

theorem served {t : Task (Store.interface.sum M) α} (h : Comes cl t a ds)
    (hds : ∀ d ∈ ds, d.Plausible ∧ d.Prompt) :
    ∃ x, Task.Path t x (.done a) ∧ Served cl (Task.firsts x) ds := by
  obtain ⟨l, hl, hfirsts⟩ := h
  obtain ⟨x, hx, hcarried⟩ := Task.Carried.of_path hl
  exact ⟨x, hx, .of_carried hcarried hfirsts hds⟩

end Comes

/-! ## Changes -/

/-- What is delivered is the request for a call. -/
def Delivery.IsFor (cl : Cluster) (c : Call) (d : Delivery) : Prop :=
  ∃ e ∈ cl.endpoints, (query c).request e = .ok d.request

theorem Delivery.IsFor.method {cl : Cluster} {c : Call} {d : Delivery} (h : d.IsFor cl c) :
    d.request.method = (query c).method := by
  obtain ⟨e, -, he⟩ := h
  exact request_method he

/-- The deliveries of a change that has stored a volume. It made the volume of a record that was
read, and no other write than the last was carried out, which is on the condition that the record is
still the one that was read. -/
structure Changed {M : Interface} (cl : Cluster) (key : String) (mutate : Volume → Task M Volume)
    (v : Volume) (p : List Delivery) (read : Delivery) (q : List Delivery) (write : Delivery) :
    Prop where
  reads : read.IsFor cl (.get key)
  writes : write.carriedOut = true
  mutates : ∃ r e u, read.outcome = .answered r ∧ entryIn r = .ok (some e) ∧
    Space.decode e.value = .ok u ∧ (mutate u).Yields v ∧
    write.IsFor cl (.compareAndSet key (Record.text v) e.index)
  once : ∀ d ∈ p ++ read :: q, d.request.method = .put → d.carriedOut = false

section Changes

variable {M : Interface} {cl : Cluster} {key : String} {mutate : Volume → Task M Volume}
variable {ds : List Delivery}

theorem firsts_of_private {l : List (Exchange (Store.interface.sum M))} (h : Private l) :
    Task.firsts l = [] := by
  refine List.filterMap_eq_nil_iff.mpr fun x hx => ?_
  obtain ⟨y, rfl⟩ := h x hx
  rfl

theorem firsts_replaced (p : List (Exchange (Store.interface.sum M)))
    {q : List (Exchange (Store.interface.sum M))} (hq : Private q) {c c' : Call} {a : c.Answer}
    {a' : c'.Answer} :
    Task.firsts (p ++ ⟨.inl c, a⟩ :: (q ++ [⟨.inl c', a'⟩])) =
      Task.firsts p ++ [⟨c, a⟩, ⟨c', a'⟩] := by
  rw [Task.firsts_append]
  refine congrArg (Task.firsts p ++ ·) (congrArg (List.cons _) ?_)
  refine (Task.firsts_append q _).trans ?_
  rw [firsts_of_private hq]
  rfl

/-- As long as a change has not written, none of its writes was carried out by an endpoint. -/
theorem Served.not_carriedOut {v : Volume} {l : List (Exchange (Store.interface.sum M))}
    (h : Served cl (Task.firsts l) ds) (hds : ∀ d ∈ ds, d.Plausible)
    (hl : ∀ x ∈ l, Space.Belongs key (.ok (some v)) x) (hwritten : Unwritten l) :
    ∀ d ∈ ds, d.request.method = .put → d.carriedOut = false := by
  intro d hd hput
  obtain ⟨c, b, ds', hmem, hoffered, hd', hsub⟩ := h.exists_call hd
  have hmem := Task.mem_firsts.mp hmem
  have hbelongs := hl _ hmem
  have hnot := hwritten _ hmem
  generalize hx : (⟨.inl c, conclude c b⟩ : Exchange (Store.interface.sum M)) = x at hbelongs hnot
  cases hbelongs with
  | own y => cases hx
  | read a =>
    cases hx
    have hfor : d.IsFor cl (.get key) := hoffered.exists_sent hd'
    rw [hfor.method] at hput
    cases hput
  | written value index k => cases hnot
  | @refused value index f hf =>
    obtain ⟨hc, ha⟩ := Sigma.mk.inj hx
    obtain rfl := Sum.inl.inj hc
    have hconclude : (b.bind (stored key)).mapError (orGone key) = .error f := eq_of_heq ha
    rcases hf with hf | hf
    · cases hb : b.bind (stored key) with
      | ok i =>
        rw [hb] at hconclude
        cases hconclude
      | error e =>
        rw [hb] at hconclude
        obtain rfl : orGone key e = f := Except.error.inj hconclude
        exact hoffered.not_carriedOut_of_stored (fun d hd => hds d (hsub hd)) hb
          (isConflict_orGone hf) d hd'
    · cases hf

/-- A change that comes to a volume has read a record, changed it once and stored the outcome. -/
theorem Served.changed {n : Nat} {v : Volume} {l : List (Exchange (Store.interface.sum M))}
    (h : Served cl (Task.firsts l) ds) (hds : ∀ d ∈ ds, d.Plausible)
    (hl : Task.Path (Space.changeRounds key mutate n).run l (.done (.ok (some v)))) :
    ∃ p read q write, ds = p ++ read :: (q ++ [write]) ∧
      Changed cl key mutate v p read q write := by
  have hbelongs := Space.belongs_of_path hl
  rcases Space.path_changeRounds hl with ⟨-, hne⟩ | ⟨v', hreplaced, hv'⟩
  · exact absurd rfl (hne v)
  cases hv'
  obtain ⟨p, q, e, u, k, rfl, hp, hq, hu, hv⟩ := hreplaced
  have hserved := (congrArg (Served cl · ds) (firsts_replaced p hq)).mp h
  obtain ⟨dp, dr, rfl, hbefore, hrest⟩ := hserved.of_append
  obtain ⟨b, dg, dw, rfl, hget, hgot, hrest⟩ := hrest.of_cons
  obtain ⟨b', dc, dn, rfl, hset, hdone, hnil⟩ := hrest.of_cons
  cases hnil
  rw [List.append_nil] at hds ⊢
  obtain ⟨hdp, hds⟩ := List.forall_mem_append.mp hds
  obtain ⟨hdg, hdc⟩ := List.forall_mem_append.mp hds
  obtain ⟨r, rfl, hentry⟩ := exists_of_conclude_get hgot.symm
  have hstored := stored_of_conclude_compareAndSet hdone.symm
  obtain ⟨g, read, rfl, hanswer, -⟩ := hget.last
  obtain ⟨w, write, rfl, hcarried, hw⟩ := hset.carriedOut_of_stored hdc hstored
  have hgets : ∀ d ∈ g ++ [read], d.request.method ≠ .put := by
    intro d hd hput
    have hfor : d.IsFor cl (.get key) := hget.exists_sent hd
    rw [hfor.method] at hput
    cases hput
  refine ⟨dp ++ g, read, w, write, by simp, ?_⟩
  exact
    { reads := hget.exists_sent (by simp)
      writes := hcarried
      mutates := ⟨r, e, u, hanswer, hentry, hu, hv, hset.exists_sent (by simp)⟩
      once := by
        intro d hd hput
        rcases List.mem_append.mp hd with hd | hd
        · rcases List.mem_append.mp hd with hd | hd
          · exact hbefore.not_carriedOut hdp (fun x hx => hbelongs x (by simp [hx])) hp d hd hput
          · exact absurd hput (hgets d (by simp [hd]))
        · rcases List.mem_cons.mp hd with rfl | hd
          · exact absurd hput (hgets d (by simp))
          · exact hw d hd }

end Changes

end HostAgent.Store.Etcd
