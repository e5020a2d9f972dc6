import HostAgent.Proofs.Json.Fields
import HostAgent.Proofs.Store.KeyResults

namespace HostAgent.Store.Etcd

/-!
# Answers of a server of keys

What a client makes of a response is what the server has answered in it.
-/

open Keys
open Json (Decodes Decoder Fields)

/-! ## Responses -/

section Responses

variable {r : Http.Response} {m : List (String × Json)} {j : Json} {key : String} {n : Nat}

theorem decodes_index {i : Nat} (hi : i < wordLimit) :
    Decodes (Decoder.word.map UInt64.toNat) (.number (.integer i)) i := by
  unfold wordLimit at hi
  have hword := (Json.decodes_integer (i := (i : Int)) (by omega)).map UInt64.toNat
  rwa [Int.toNat_natCast, UInt64.toNat_ofNat_of_lt' hi] at hword

theorem reads_index (hm : HasIndex m) :
    ∃ i, (Fields.optional "modifiedIndex" (Decoder.word.map UInt64.toNat) 0).Reads m i := by
  cases hj : m.lookup "modifiedIndex" with
  | none => exact ⟨0, Fields.reads_absent hj 0⟩
  | some j =>
    obtain ⟨i, hi, rfl⟩ := hm j hj
    exact ⟨i, Fields.reads_optional (decodes_index hi) hj 0⟩

/-- The client's view of a node. -/
def nodeFor : String × Content → Nat → Node
  | (key, .record e), _ => .mk key (some e.value) false [] e.index
  | (key, .directory), i => .mk key none true [] i

theorem decodes_node {c : String × Content} (h : SaysNode j c)
    (hbound : ∀ e, c.2 = .record e → e.index < wordLimit) :
    ∃ i, Decodes (Node.decoder (n + 1)) j (nodeFor c i) := by
  cases h with
  | @record m key e distinct hkey hvalue hindex hdir hnodes =>
    have hfalse : (Fields.optional "dir" Decoder.bool false).Reads m false :=
      hdir.elim (fun h => Fields.reads_absent h false) fun h =>
        Fields.reads_optional (Json.decodes_bool false) h false
    refine ⟨0, Json.decodes_object "struct Node" ?_ distinct⟩
    exact (((((Fields.reads_required (Json.decodes_string key) hkey).map Node.mk).seq
      (Fields.reads_optional (Json.decodes_option (Json.decodes_string e.value) nofun) hvalue
        none)).seq
        hfalse).seq (Fields.reads_absent hnodes [])).seq
          (Fields.reads_optional (decodes_index (hbound e rfl)) hindex 0)
  | @directory m key distinct hkey hvalue hindex hdir hnodes =>
    obtain ⟨i, hi⟩ := reads_index hindex
    refine ⟨i, Json.decodes_object "struct Node" ?_ distinct⟩
    exact (((((Fields.reads_required (Json.decodes_string key) hkey).map Node.mk).seq
      (Fields.reads_absent hvalue none)).seq
        (Fields.reads_optional (Json.decodes_bool true) hdir false)).seq
          (Fields.reads_absent hnodes [])).seq hi

def record? : String × Content → Option (String × Entry)
  | (key, .record e) => some (key, e)
  | (_, .directory) => none

theorem record?_eq_some_iff {c : Content} {d : String × Entry} :
    record? (key, c) = some d ↔ key = d.1 ∧ c = .record d.2 := by
  cases c <;> simp [record?, Prod.ext_iff]

/-- The records among nodes. -/
def records (l : List (String × Content)) : List (String × Entry) := l.filterMap record?

/-- The records that the client keeps of nodes are the records that were said. -/
theorem decodes_nodes {items : List Json} {l : List (String × Content)}
    (h : List.Forall₂ SaysNode items l)
    (hbound : ∀ c ∈ l, ∀ e, c.2 = .record e → e.index < wordLimit) :
    ∃ nodes, List.Forall₂ (Decodes (Node.decoder (n + 1))) items nodes ∧
      ∀ key value dir i, entries (.mk key value dir nodes i) = records l := by
  induction h with
  | nil => exact ⟨[], .nil, fun _ _ _ _ => rfl⟩
  | @cons j c items l hj _ ih =>
    obtain ⟨i, hnode⟩ := decodes_node (n := n) hj (hbound c List.mem_cons_self)
    obtain ⟨nodes, hnodes, hentries⟩ := ih fun d hd => hbound d (List.mem_cons_of_mem _ hd)
    refine ⟨nodeFor c i :: nodes, .cons hnode hnodes, fun key value dir index => ?_⟩
    have hrest := hentries key value dir index
    obtain ⟨k, e | _⟩ := c
    · exact congrArg ((k, e) :: ·) hrest
    · exact hrest

theorem decodes_directory {l : List (String × Content)} (h : SaysDirectory m key l)
    (hbound : ∀ c ∈ l, ∀ e, c.2 = .record e → e.index < wordLimit) :
    ∃ node, Decodes (Node.decoder (n + 2)) (.object m) node ∧ entries node = records l := by
  obtain ⟨i, hi⟩ := reads_index h.index
  have hfront := ((((Fields.reads_required (Json.decodes_string key) h.key).map Node.mk).seq
    (Fields.reads_absent (d := Decoder.option .string) h.value none)).seq
      (Fields.reads_optional (Json.decodes_bool true) h.dir false))
  rcases h.nodes with ⟨hnone, rfl⟩ | ⟨items, hitems, hsays⟩
  · exact ⟨_, Json.decodes_object "struct Node"
      ((hfront.seq (Fields.reads_absent hnone [])).seq hi) h.distinct, rfl⟩
  · obtain ⟨nodes, hnodes, hentries⟩ := decodes_nodes (n := n) hsays hbound
    exact ⟨_, Json.decodes_object "struct Node"
      ((hfront.seq (Fields.reads_optional (Json.decodes_array hnodes) hitems [])).seq hi)
      h.distinct, hentries _ _ _ _⟩

/-! ## Bodies -/

variable {α : Type} {d : Decoder α} {a : α}

theorem ofInput_of_body (h : HasBody r m) (hd : Decodes d (.object m) a) :
    d.ofInput (Text.Utf8.symbols r.body) = .ok a := by
  obtain ⟨b, t, b', hb, ht, hb', hbody⟩ := h.body
  have hdecoded := hd .ofText (Json.Cursor.admits_ofText h.shallow)
  rw [hbody, Text.Utf8.symbols_encode, String.toList_ofList]
  exact Json.ofInput_spelled ht h.integral hb hb' hdecoded

theorem ofString_of_body (h : HasBody r m) (hd : Decodes d (.object m) a) :
    d.ofString r.text = .ok a := by
  have hinput := ofInput_of_body h hd
  obtain ⟨b, t, b', -, -, -, hbody⟩ := h.body
  rw [hbody, Text.Utf8.symbols_encode] at hinput
  rw [Http.Response.text, hbody, Text.Utf8.decodeLossy_encode]
  exact hinput

theorem node_of_body {n : Node} (h : HasBody r m) (hj : m.lookup "node" = some j)
    (hn : Decodes (Node.decoder 128) j n) : nodeIn r = .ok n := by
  have hnode := ofInput_of_body h (Json.decodes_object "struct KeysResponse"
    (Fields.reads_required hn hj) h.distinct)
  rw [nodeIn, nodeOf, hnode]
  rfl

theorem fault_of_body {code : Nat} {message : String} (hcode : code < wordLimit)
    (h : HasBody r m) (hj : m.lookup "errorCode" = some (.number (.integer code)))
    (hmessage : m.lookup "message" = some (.string message)) :
    Fault.ofText r.text = some ⟨code, message⟩ := by
  have hfault := ofString_of_body h (Json.decodes_object "struct ErrorBody"
    (((Fields.reads_required (decodes_index hcode) hj).map Fault.mk).seq
      (Fields.reads_optional (Json.decodes_string message) hmessage "")) h.distinct)
  rw [Fault.ofText, Fault.decoder, hfault]
  rfl

end Responses

/-! ## Answers -/

section Answers

variable {r : Http.Response} {key value : String}

/-- What the client makes of an answer. -/
def made : (c : Call) → Keys.Answer → c.Answer
  | .get _, .node _ e => .ok (some e)
  | .get _, _ => .ok none
  | .list _, .directory _ l => .ok (records l)
  | .list _, _ => .ok []
  | .set _ _, .node _ e => .ok e.index
  | .set key _, _ => .error (.conflict key)
  | .create _ _, .node _ e => .ok e.index
  | .create key _, _ => .error (.conflict key)
  | .compareAndSet _ _ _, .node _ e => .ok e.index
  | .compareAndSet key _ _, _ => .error (.conflict key)
  | .delete _, .done => .ok true
  | .delete _, _ => .ok false

variable {e : Entry} {l : List (String × Content)} {status code : Nat}

theorem node_of_said (h : (Keys.Answer.node key e).SaidBy r) (hi : e.index < wordLimit) :
    r.isSuccess = true ∧ nodeIn r = .ok (.mk key (some e.value) false [] e.index) := by
  obtain ⟨hsuccess, m, j, hbody, hj, hsays⟩ := h
  obtain ⟨i, hnode⟩ := decodes_node (n := 127) hsays fun e' he' => by cases he'; exact hi
  exact ⟨hsuccess, node_of_body hbody hj hnode⟩

theorem directory_of_said (h : (Keys.Answer.directory key l).SaidBy r)
    (hbound : ∀ c ∈ l, ∀ e, c.2 = .record e → e.index < wordLimit) :
    r.isSuccess = true ∧ ∃ n, nodeIn r = .ok n ∧ entries n = records l := by
  obtain ⟨hsuccess, m, members, hbody, hj, hsays⟩ := h
  obtain ⟨n, hnode, hentries⟩ := decodes_directory (n := 126) hsays hbound
  exact ⟨hsuccess, n, node_of_body hbody hj hnode, hentries⟩

theorem fault_of_said (h : (Keys.Answer.fault status code).SaidBy r) (hstatus : 300 ≤ status)
    (hcode : code < wordLimit) :
    r.isSuccess = false ∧ r.status = status ∧
      ∃ message, Fault.ofText r.text = some ⟨code, message⟩ := by
  obtain ⟨rfl, m, message, hbody, hj, hmessage⟩ := h
  have hfailure : r.isSuccess = false := by
    simp [Http.Response.isSuccess, hstatus]
  exact ⟨hfailure, rfl, message, fault_of_body hcode hbody hj hmessage⟩

theorem missing_of_said (h : (Keys.Answer.fault 404 100).SaidBy r) :
    r.isSuccess = false ∧ isMissing r = true := by
  obtain ⟨hfailure, hstatus, m, hfault⟩ := fault_of_said h (by decide) (by decide)
  exact ⟨hfailure, by simp [isMissing, hstatus, hfault, keyNotFound]⟩

theorem gone_of_said (key : String) (h : (Keys.Answer.fault 404 100).SaidBy r) :
    r.isSuccess = false ∧ ∃ m, writeError key r = .backend 404 m := by
  obtain ⟨hfailure, hstatus, m, hfault⟩ := fault_of_said h (by decide) (by decide)
  exact ⟨hfailure, m, by simp [writeError, hstatus, hfault, testFailed, nodeExists]⟩

theorem conflict_of_said (key : String) (h : (Keys.Answer.fault 412 code).SaidBy r)
    (hcode : code = 101 ∨ code = 105) :
    r.isSuccess = false ∧ writeError key r = .conflict key := by
  obtain ⟨hfailure, -, m, hfault⟩ := fault_of_said h (by decide) (by unfold wordLimit; omega)
  exact ⟨hfailure, by simp [writeError, hfault, testFailed, nodeExists, hcode]⟩

theorem stored_of_said {i : Nat} (hsaid : (Keys.Answer.node key ⟨value, i⟩).SaidBy r)
    (hi : i < wordLimit) : stored key r = .ok i := by
  obtain ⟨hsuccess, hnode⟩ := node_of_said hsaid hi
  rw [stored_of_success hsuccess, hnode]
  rfl

/-- The indexes of an answer are of sixty-four bits. -/
def Readable : Keys.Answer → Prop
  | .node _ e => e.index < wordLimit
  | .directory _ l => ∀ c ∈ l, ∀ e, c.2 = .record e → e.index < wordLimit
  | .done | .fault _ _ => True

/-- What the client makes of a response is what it makes of the answer that the response says. -/
theorem conclude_of_said {t t' : Tree} {c : Call} {a : Keys.Answer} (htakes : Takes t c a t')
    (hsaid : a.SaidBy r) (ha : Readable a) : conclude c (.ok r) = made c a := by
  cases htakes with
  | found h =>
    obtain ⟨hsuccess, hnode⟩ := node_of_said hsaid ha
    rw [conclude_get, found_of_success hsuccess, entryIn, hnode]
    rfl
  | missing h =>
    obtain ⟨hfailure, hmissing⟩ := missing_of_said hsaid
    rw [conclude_get, found_of_missing hfailure hmissing]
    rfl
  | listed h hl =>
    obtain ⟨hsuccess, n, hnode, hentries⟩ := directory_of_said hsaid ha
    rw [conclude_list, found_of_success hsuccess, entriesIn, hnode, made, ← hentries]
    rfl
  | unlisted h =>
    obtain ⟨hfailure, hmissing⟩ := missing_of_said hsaid
    rw [conclude_list, found_of_missing hfailure hmissing]
    rfl
  | set hi => exact stored_of_said hsaid ha
  | created h hi => exact stored_of_said hsaid ha
  | @existing key value e h =>
    obtain ⟨hfailure, herror⟩ := conflict_of_said key hsaid (.inr rfl)
    exact (stored_of_failure hfailure).trans (by rw [herror]; rfl)
  | @swapped key value e i h hi =>
    rw [conclude_compareAndSet, stored_of_said hsaid ha]
    rfl
  | @stale key value e index h hne =>
    obtain ⟨hfailure, herror⟩ := conflict_of_said key hsaid (.inl rfl)
    rw [conclude_compareAndSet, stored_of_failure hfailure, herror]
    rfl
  | @gone key value index h =>
    obtain ⟨hfailure, m, herror⟩ := gone_of_said key hsaid
    rw [conclude_compareAndSet, stored_of_failure hfailure, herror]
    rfl
  | deleted h hi =>
    rw [conclude_delete, found_of_success hsaid]
    rfl
  | undeleted h =>
    obtain ⟨hfailure, hmissing⟩ := missing_of_said hsaid
    rw [conclude_delete, found_of_missing hfailure hmissing]
    rfl

end Answers

/-! ## Steps -/

variable {endpoints : List Http.Endpoint} {K : KeyServer endpoints} {c : Call}

/-- No record has an index that the counter has not come to. -/
def Bounded (t : Tree) : Prop := ∀ key e, t.find key = some (.record e) → e.index ≤ t.index

theorem readable_of_takes {t t' : Tree} {a : Keys.Answer} (h : Takes t c a t') (ht : Bounded t)
    (hword : t'.index < wordLimit) : Readable a := by
  cases h with
  | @found key e hfind => exact Nat.lt_of_le_of_lt (ht key e hfind) hword
  | @listed dir l hfind hl =>
    intro d hd e he
    obtain ⟨hd, -⟩ := (hl.mem_iff d.1 d.2).mp hd
    exact Nat.lt_of_le_of_lt (ht d.1 e (he ▸ hd)) hword
  | set _ | created _ _ | swapped _ _ => exact hword
  | _ => trivial

/-- A call that the server admits comes to one of its answers, and to what is made of it. -/
theorem answer_takes (hc : IsKey c.key) (hup : ∃ e ∈ endpoints, K.up e = true) {s s' : K.State}
    {a : c.Answer} (hadmits : (K.tree s).Admits c) (hbounded : Bounded (K.tree s))
    (hrun : (answer (clusterOf endpoints) c).run K.respond s = (a, s'))
    (hword : (K.tree s').index < wordLimit) :
    ∃ b, Takes (K.tree s) c b (K.tree s') ∧ a = made c b := by
  obtain ⟨response, s₂, hsend, e, he, hupe, r, s₁, hasks, htree, hrespond⟩ :=
    send_run (K := K) hc hup s
  have hconcluded := answer_run hsend
  rw [hrun] at hconcluded
  obtain ⟨ha, rfl⟩ := Prod.mk.inj hconcluded
  obtain ⟨response', hresponse, hserved⟩ := K.serves e he hupe r s₁ c hasks hc
  rw [hrespond, htree] at hserved
  rw [hrespond] at hresponse
  cases hresponse
  obtain ⟨b, htakes, hsaid⟩ := hserved hadmits hword
  exact ⟨b, htakes, ha.trans
    (conclude_of_said htakes hsaid (readable_of_takes htakes hbounded hword))⟩

end HostAgent.Store.Etcd
