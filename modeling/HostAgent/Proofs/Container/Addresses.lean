import HostAgent.Proofs.Container.DaemonRequests
import HostAgent.Proofs.Http.Paths

namespace HostAgent.Container.Daemon

/-!
# Where the container of an identifier is asked for

The client puts identifiers into its paths as they are. An identifier that is plain is a segment of
the path and nothing but that; of any other one the client makes a path that means something else,
or none at all, which ends it.
-/

open Text.Percent (NoEscape)

variable {α : Type} {cl cl' : Client} {c d : Call} {id id' socket path t w : String} {r : Request}

/-! ## What there is in a target -/

/-- What is sent of a path, if it is sent. -/
theorem of_target? (h : target? socket path = some t) :
    t.toList = path.toList.takeWhile (· != '#') ∧ addressLength socket path ≤ maxAddress ∧
      ∀ c ∈ t.toList.takeWhile (· != '?'), inPath c = true := by
  simp only [target?, Option.ite_none_right_eq_some, Option.some.injEq] at h
  obtain ⟨⟨hlength, hfront, -⟩, rfl⟩ := h
  rw [List.span_eq_takeWhile_dropWhile] at hfront
  rw [String.toList_ofList]
  exact ⟨rfl, hlength, List.all_eq_true.mp hfront⟩

/-- The request with which a task begins. -/
def sent? : Task interface α → Option Request
  | .ask r _ => some r
  | .done _ => none

theorem of_sent? (h : sent? (answer cl c) = some r) :
    ∃ t, target? cl.socket (version ++ Daemon.path c) = some t ∧
      r = requestOf (method c) t (content c) := by
  cases htarget : target? cl.socket (version ++ Daemon.path c) with
  | none =>
    rw [answer_of_none c htarget] at h
    cases h
  | some t =>
    rw [answer_eq c htarget] at h
    exact ⟨t, rfl, (Option.some.inj h).symm⟩

/-! ## What stands around an identifier -/

/-- What follows the identifier in the path of a call. -/
def word : Call → String
  | .start _ => "/start"
  | .stop _ _ => "/stop"
  | .inspect _ => "/json"
  | .ping | .create _ | .remove _ _ => ""

/-- The target of a call with a text in the place of the identifier. -/
def targetWith (c : Call) (w : String) : String :=
  withPairs ("/v1.24/containers/" ++ w ++ word c) (pairs? c)

/-- All that follows the identifier in the target of a call. -/
def tail (c : Call) : List Char := (withPairs (word c) (pairs? c)).toList

theorem toList_targetWith (c : Call) (w : String) :
    (targetWith c w).toList = "/v1.24/containers/".toList ++ (w.toList ++ tail c) := by
  rw [targetWith, tail]
  cases pairs? c <;> simp [withPairs]

theorem version_path_of_id (hc : c.id? = some id) : version ++ Daemon.path c = targetWith c id := by
  rw [version_path, targetWith]
  cases c with
  | ping | create spec => cases hc
  | start id | stop id grace | inspect id =>
    cases hc
    rfl
  | remove id volumes =>
    cases hc
    rw [word, String.append_empty]
    rfl

/-- Whether a sign may stand in a segment of a path. -/
def inSegment (c : Char) : Bool := c != '/' && c != '?' && c != '#'

/-- What follows an identifier does not belong to its segment. -/
theorem takeWhile_tail (hc : c.id? = some id) : (tail c).takeWhile inSegment = [] := by
  cases c with
  | ping | create spec => cases hc
  | start id | inspect id | stop id grace | remove id volumes =>
    simp [tail, word, pairs?, withPairs, inSegment]

theorem takeWhile_segment (hc : c.id? = some id) (hw : ∀ d ∈ w.toList, inSegment d = true) :
    (w.toList ++ tail c).takeWhile inSegment = w.toList := by
  rw [List.takeWhile_append_of_pos hw, takeWhile_tail hc, List.append_nil]

/-! ## Requests for one container -/

/-- A text in a path stands for an identifier: it is one segment, which nobody resolves, and who
reads its escapes has the identifier. -/
structure StandsFor (w id : String) : Prop where
  whole : ∀ d ∈ w.toList, inSegment d = true
  undotted : Http.Url.dots w.toList = .name
  decoded : Text.Percent.decode w.toList = Text.Utf8.encode id

/-- A call is one request whatever comes back for it, and between the directory of containers and
what belongs to the call its target has nothing but a segment for the identifier. -/
def Addresses (cl : Client) (c : Call) (id : String) : Prop :=
  ∃ w, StandsFor w id ∧
    answer cl c = .ask (I := interface) (requestOf (method c) (targetWith c w) none) fun o =>
      .done (some (conclude c (received o)))

/-- An identifier that may stand in a path as it is. -/
structure IsPlain (id : String) : Prop where
  inPath : ∀ d ∈ id.toList, inPath d = true ∧ d ≠ '/'
  unescaped : NoEscape id.toList
  undotted : id ≠ "." ∧ id ≠ ".."

/-- A text that stands for an identifier, and that follows the directory in what is sent of a path
with the identifier, is the identifier itself. -/
theorem eq_of_sent {s : List Char} (hw : StandsFor w id)
    (h : w.toList ++ s = (id.toList ++ s).takeWhile (· != '#')) : w = id := by
  have hprefix : w.toList <+: id.toList ++ s :=
    (List.prefix_append _ s).trans (h ▸ List.takeWhile_prefix _)
  have hlength : w.toList.length ≤ id.toList.length := by
    have hle := (List.takeWhile_prefix (l := id.toList ++ s) (· != '#')).length_le
    rw [← h, List.length_append, List.length_append] at hle
    exact Nat.le_of_add_le_add_right hle
  obtain ⟨v, hv⟩ := List.prefix_of_prefix_length_le hprefix (List.prefix_append _ s) hlength
  have hoctets : Text.Utf8.encode id =
      w.toList.flatMap String.utf8EncodeChar ++ v.flatMap String.utf8EncodeChar := by
    rw [← List.flatMap_append, hv]
    rfl
  have hshort := Text.Percent.length_decode_le w.toList
  rw [hw.decoded, hoctets, List.length_append] at hshort
  have hrest : v.flatMap String.utf8EncodeChar = [] := List.eq_nil_of_length_eq_zero (by omega)
  have hnil : v = [] := by
    refine List.eq_nil_iff_forall_not_mem.mpr fun d hd => ?_
    exact String.utf8EncodeChar_ne_nil (List.flatMap_eq_nil_iff.mp hrest d hd)
  rw [hnil, List.append_nil] at hv
  exact String.toList_inj.mp hv

/-- The request for a container is sent as it was made, and only if it fits. -/
theorem of_addresses (hc : c.id? = some id) (h : Addresses cl c id) :
    cl.Fits c ∧ StandsFor id id ∧ (∀ d ∈ id.toList, inPath d = true) ∧
      sent? (answer cl c) = some (requestOf (method c) (targetWith c id) none) := by
  obtain ⟨w, hw, hanswer⟩ := h
  have hsent : sent? (answer cl c) = some (requestOf (method c) (targetWith c w) none) := by
    rw [hanswer]
    rfl
  obtain ⟨t, ht, hr⟩ := of_sent? hsent
  obtain rfl : targetWith c w = t := congrArg Request.target hr
  obtain ⟨hlist, hlength, hfront⟩ := of_target? ht
  have hdirectory : ∀ d ∈ "/v1.24/containers/".toList, (d != '#') = true := by simp
  have hmark : ∀ d ∈ "/v1.24/containers/".toList, (d != '?') = true := by simp
  rw [version_path_of_id hc, toList_targetWith, toList_targetWith,
    List.takeWhile_append_of_pos hdirectory] at hlist
  obtain rfl := eq_of_sent hw (List.append_cancel_left hlist)
  refine ⟨hlength, hw, fun d hd => hfront d ?_, hsent⟩
  have hid : ∀ e ∈ w.toList, (e != '?') = true := by
    intro e he
    have hsegment := hw.whole e he
    simp only [inSegment, Bool.and_eq_true] at hsegment
    exact hsegment.1.2
  rw [toList_targetWith, List.takeWhile_append_of_pos hmark, List.takeWhile_append_of_pos hid]
  exact List.mem_append_right _ (List.mem_append_left _ hd)

theorem standsFor_iff : StandsFor id id ↔
    (∀ d ∈ id.toList, inSegment d = true) ∧ NoEscape id.toList ∧ id ≠ "." ∧ id ≠ ".." := by
  constructor
  · rintro ⟨hwhole, hundotted, hdecoded⟩
    refine ⟨hwhole, Text.Percent.noEscape_of_length_le ?_, ?_, ?_⟩
    · rw [hdecoded]
      exact Nat.le_refl _
    · rintro rfl
      exact absurd hundotted (by decide)
    · rintro rfl
      exact absurd hundotted (by decide)
  · rintro ⟨hwhole, hescape, hone, htwo⟩
    refine ⟨hwhole, Http.Url.dots_of_noEscape hescape ?_ ?_, ?_⟩
    · exact fun h => hone (String.toList_inj.mp h)
    · exact fun h => htwo (String.toList_inj.mp h)
    · exact Text.Percent.decode_of_noEscape hescape

theorem IsPlain.standsFor (h : IsPlain id) : StandsFor id id := by
  refine standsFor_iff.mpr ⟨fun d hd => ?_, h.unescaped, h.undotted⟩
  obtain ⟨hpath, hslash⟩ := h.inPath d hd
  obtain ⟨hdirectory, hmark⟩ := ne_of_inPath hpath
  simp [inSegment, hslash, hdirectory, hmark]

theorem addresses_iff (hc : c.id? = some id) :
    Addresses cl c id ↔ IsPlain id ∧ cl.Fits c := by
  constructor
  · intro h
    obtain ⟨hfits, hstands, hpath, -⟩ := of_addresses hc h
    obtain ⟨hwhole, hescape, hdots⟩ := standsFor_iff.mp hstands
    refine ⟨⟨fun d hd => ⟨hpath d hd, ?_⟩, hescape, hdots⟩, hfits⟩
    rintro rfl
    exact absurd (hwhole _ hd) (by decide)
  · rintro ⟨hplain, hfits⟩
    have hid : ∀ id', c.id? = some id' → ∀ d ∈ id'.toList, inPath d = true := by
      intro id' hid' d hd
      obtain rfl := Option.some.inj (hc.symm.trans hid')
      exact (hplain.inPath d hd).1
    have hcontent : content c = none := by
      cases c with
      | ping | create spec => cases hc
      | start id | stop id grace | remove id volumes | inspect id => rfl
    refine ⟨id, hplain.standsFor, ?_⟩
    rw [answer_eq c (target?_call hid hfits), version_path_of_id hc, hcontent]

/-- A segment is found again in its target. -/
theorem eq_of_targetWith (hc : c.id? = some id) (hd : d.id? = some id') (h : StandsFor id id)
    (h' : StandsFor id' id') (heq : targetWith c id = targetWith d id') : id = id' := by
  have hlist := congrArg String.toList heq
  rw [toList_targetWith, toList_targetWith] at hlist
  have hsegment := congrArg (List.takeWhile inSegment) (List.append_cancel_left hlist)
  rw [takeWhile_segment hc h.whole, takeWhile_segment hd h'.whole] at hsegment
  exact String.toList_inj.mp hsegment

/-- Whatever its identifier is, a call is one request, or it ends the client before any. The request
has the identifier in its place, whole and alone, exactly if the identifier is plain and the address
not too long; and requests like that for two identifiers never have the same target. -/
theorem plain_ids_addressed (cl cl' : Client) (c d : Call) :
    (answer cl c = .done none ∨
      ∃ r, answer cl c = .ask (I := interface) r fun o => .done (some (conclude c (received o)))) ∧
    (∀ id, c.id? = some id → (Addresses cl c id ↔ IsPlain id ∧ cl.Fits c)) ∧
    ∀ id id' r r', c.id? = some id → d.id? = some id' → Addresses cl c id → Addresses cl' d id' →
      sent? (answer cl c) = some r → sent? (answer cl' d) = some r' → id ≠ id' →
        r.target ≠ r'.target := by
  refine ⟨?_, fun id hc => addresses_iff hc, ?_⟩
  · cases htarget : target? cl.socket (version ++ Daemon.path c) with
    | none => exact .inl (answer_of_none c htarget)
    | some t => exact .inr ⟨_, answer_eq c htarget⟩
  · intro id id' r r' hc hd h h' hr hr' hne heq
    obtain ⟨-, hstands, -, hsent⟩ := of_addresses hc h
    obtain ⟨-, hstands', -, hsent'⟩ := of_addresses hd h'
    obtain rfl := Option.some.inj (hr.symm.trans hsent)
    obtain rfl := Option.some.inj (hr'.symm.trans hsent')
    exact hne (eq_of_targetWith hc hd hstands hstands' heq)

def localDaemon : Client := ⟨"/run/docker.sock"⟩

/-- The sign of an escape that is none, and signs that other parts of a path do not have. -/
theorem isPlain_odd : IsPlain "0f;%z" where
  inPath := List.all_iff_forall_prop.mp (by decide)
  unescaped := by decide
  undotted := by decide

theorem isPlain_hidden : IsPlain ".hidden" where
  inPath := List.all_iff_forall_prop.mp (by decide)
  unescaped := by decide
  undotted := by decide

theorem plain_ids_addressed_odd :
    Addresses localDaemon (.stop "0f;%z" default) "0f;%z" ∧
      Addresses localDaemon (.remove ".hidden" true) ".hidden" ∧
      ∃ r r', sent? (answer localDaemon (.stop "0f;%z" default)) = some r ∧
        sent? (answer localDaemon (.remove ".hidden" true)) = some r' ∧ r.target ≠ r'.target := by
  obtain ⟨-, haddressed, hdiffer⟩ := plain_ids_addressed localDaemon localDaemon
    (.stop "0f;%z" default) (.remove ".hidden" true)
  obtain ⟨-, haddressed', -⟩ := plain_ids_addressed localDaemon localDaemon
    (.remove ".hidden" true) (.stop "0f;%z" default)
  have hodd := (haddressed _ rfl).mpr ⟨isPlain_odd, by decide +kernel⟩
  have hhidden := (haddressed' _ rfl).mpr ⟨isPlain_hidden, by decide +kernel⟩
  obtain ⟨w, -, hstop⟩ := id hodd
  obtain ⟨w', -, hremove⟩ := id hhidden
  have hsent := congrArg sent? hstop
  have hsent' := congrArg sent? hremove
  exact ⟨hodd, hhidden, _, _, hsent, hsent',
    hdiffer _ _ _ _ rfl rfl hodd hhidden hsent hsent' (by decide)⟩

/-- Identifiers that end the client, that name another operation, that add to the query and that cut
it off, so that two of them have one target. -/
theorem ids_sent_elsewhere :
    ¬ Addresses localDaemon (.start "a b") "a b" ∧
      sent? (answer localDaemon (.start "a b")) = none ∧
      sent? (answer localDaemon (.start "a/kill#")) =
        some ⟨.post, "/v1.24/containers/a/kill", none, []⟩ ∧
      sent? (answer localDaemon (.remove "a?force=true&w=" false)) =
        some ⟨.delete, "/v1.24/containers/a?force=true&w=?v=false", none, []⟩ ∧
      sent? (answer localDaemon (.inspect "a#b")) =
        sent? (answer localDaemon (.inspect "a#c")) := by
  refine ⟨fun h => ?_, by decide +kernel⟩
  obtain ⟨hplain, -⟩ := (addresses_iff rfl).mp h
  exact absurd (hplain.inPath ' ' (by decide)).1 (by decide)

end HostAgent.Container.Daemon
