import HostAgent.Proofs.Store.KeyRequests
import HostAgent.Proofs.Store.Listing
import HostAgent.Proofs.Store.MapServer

namespace HostAgent.Store

/-!
# Where requests for records go

Keys are put into addresses as they are. A key that is kept as a path goes to the path below the
keys of the endpoint, whole and alone, so that requests for different records go to different paths,
and no name changes the condition of a write.
-/

open Keys

/-- The records of a space, by what each is known by. -/
inductive Subject where
  | host (uuid : String)
  | volume (name : String)
  | settings
  deriving DecidableEq

def Subject.key (s : Space) : Subject → String
  | .host uuid => s.hostKey uuid
  | .volume name => s.volumeKey name
  | .settings => s.settingsKey

theorem Subject.key_injective (s : Space) : Function.Injective (Subject.key s) := by
  intro a b h
  cases a with
  | host u =>
    cases b with
    | host u' => rw [s.hostKey_injective h]
    | volume n => exact absurd h Space.hostKey_ne_volumeKey
    | settings => exact absurd h Space.hostKey_ne_settingsKey
  | volume n =>
    cases b with
    | host u => exact absurd h.symm Space.hostKey_ne_volumeKey
    | volume n' => rw [s.volumeKey_injective h]
    | settings => exact absurd h Space.volumeKey_ne_settingsKey
  | settings =>
    cases b with
    | host u => exact absurd h.symm Space.hostKey_ne_settingsKey
    | volume n => exact absurd h.symm Space.volumeKey_ne_settingsKey
    | settings => rfl

namespace Etcd

/-- The path of a key at an endpoint. -/
def keyPath (e : Http.Endpoint) (key : String) : String :=
  (Http.Path.segments e.base).text ++ "/v2/keys" ++ key

theorem keyPath_injective (e : Http.Endpoint) : Function.Injective (keyPath e) :=
  fun _ _ => (String.append_right_inj _).mp

/-- The query of a request: the condition of its call, and nothing else. -/
def condition? : Call → Option String
  | .get _ | .set _ _ | .delete _ => none
  | .list _ => some "sorted=true"
  | .create _ _ => some "prevExist=false"
  | .compareAndSet _ _ index => some ("prevIndex=" ++ Text.Percent.encodeForm (toString index))

/-- A request asks for a call at an endpoint, and is addressed to the key of the call, whole and
alone. -/
structure Addressed (e : Http.Endpoint) (c : Call) (r : Http.Request) : Prop where
  asks : Asks e r (asked c)
  path : Text.Percent.decode r.url.path.text.toList = Text.Utf8.encode (keyPath e c.key)
  query : r.url.query = condition? c
  fragment : r.url.fragment = none

section Verbatim

variable {e : Http.Endpoint} {key : String} {c : Call}

theorem isVerbatim_keyPath (e : Http.Endpoint) (h : Http.IsVerbatim key) :
    Http.IsVerbatim (keyPath e key) := by
  have hnames : ∀ s ∈ ["v2", "keys"], Http.IsName s := by decide
  have hkeys : "/v2/keys" = (Http.Path.segments ["v2", "keys"]).text := by decide
  rw [keyPath, hkeys, String.append_assoc]
  exact (h.below hnames).below e.named

theorem address?_verbatim (e : Http.Endpoint) (h : Http.IsVerbatim key) :
    Http.address? (Text.trimSlashes e.text ++ "/v2/keys" ++ key) =
      .ok (e.address (keyPath e key)) := by
  have hnames : ∀ s ∈ ["v2", "keys"], Http.IsName s := by decide
  have hkeys : "/v2/keys" = (Http.Path.segments ["v2", "keys"]).text := by decide
  rw [keyPath, String.append_assoc, String.append_assoc, hkeys]
  exact e.address?_append (h.toIsPath.below hnames)

theorem addresses_verbatim (e : Http.Endpoint) (h : Http.IsVerbatim key) :
    Addresses e (e.address (keyPath e key)) key where
  scheme := rfl
  host := rfl
  port := rfl
  path := by
    rw [Text.Percent.text]
    exact (congrArg Text.Utf8.decodeLossy (isVerbatim_keyPath e h).decode_segments).trans
      (Text.Utf8.decodeLossy_encode _)
  query := rfl

theorem request_verbatim (e : Http.Endpoint) (c : Call) (h : Http.IsVerbatim c.key) :
    (query c).request (Text.trimSlashes e.text) =
      .ok ((query c).requestAt (e.address (keyPath e c.key))) := by
  apply request_of_address
  rw [query_key]
  exact address?_verbatim e h

theorem addressed_verbatim (e : Http.Endpoint) (c : Call) (h : Http.IsVerbatim c.key) :
    Addressed e c ((query c).requestAt (e.address (keyPath e c.key))) where
  asks := (addresses_verbatim e h).asks_query
  path := by
    have hpath := (isVerbatim_keyPath e h).decode_segments
    cases c <;> exact hpath
  query := by
    have hquery : ∀ name value, ((e.address (keyPath e c.key)).addQuery [(name, value)]).query =
        some (Text.Percent.encodeForm name ++ "=" ++ Text.Percent.encodeForm value) :=
      fun name value => congrArg Http.Url.query (addQuery_single rfl name value)
    have hsorted : Text.Percent.encodeForm "sorted" ++ "=" ++ Text.Percent.encodeForm "true" =
        "sorted=true" := by decide
    have hexist : Text.Percent.encodeForm "prevExist" ++ "=" ++ Text.Percent.encodeForm "false" =
        "prevExist=false" := by decide
    have hindex : Text.Percent.encodeForm "prevIndex" ++ "=" = "prevIndex=" := by decide
    cases c with
    | get key | set key value | delete key => rfl
    | list dir => exact (hquery "sorted" "true").trans (congrArg some hsorted)
    | create key value => exact (hquery "prevExist" "false").trans (congrArg some hexist)
    | compareAndSet key value index =>
      refine (hquery "prevIndex" (toString index)).trans ?_
      rw [hindex, condition?]
  fragment := by cases c <;> rfl

/-- Every call on a record whose key is kept as a path is asked for at the key of the record, whole
and alone, with the condition of the call and no other; and what is asked for two different records
of a space goes to different paths. -/
theorem requests_address_their_records (e : Http.Endpoint) (s : Space) :
    (∀ (a : Subject) (c : Call), c.key = a.key s → Http.IsVerbatim (a.key s) →
      ∃ r, (query c).request (Text.trimSlashes e.text) = .ok r ∧ Addressed e c r) ∧
    ∀ (a b : Subject) (c d : Call) (r r' : Http.Request), c.key = a.key s → d.key = b.key s →
      Http.IsVerbatim (a.key s) → Http.IsVerbatim (b.key s) →
      (query c).request (Text.trimSlashes e.text) = .ok r →
      (query d).request (Text.trimSlashes e.text) = .ok r' → a ≠ b →
      Text.Percent.decode r.url.path.text.toList ≠ Text.Percent.decode r'.url.path.text.toList := by
  constructor
  · intro a c hkey h
    rw [← hkey] at h
    exact ⟨_, request_verbatim e c h, addressed_verbatim e c h⟩
  · intro a b c d r r' hc hd ha hb hr hr' hne heq
    rw [← hc] at ha
    rw [← hd] at hb
    obtain rfl := Except.ok.inj (hr.symm.trans (request_verbatim e c ha))
    obtain rfl := Except.ok.inj (hr'.symm.trans (request_verbatim e d hb))
    rw [(addressed_verbatim e c ha).path, (addressed_verbatim e d hb).path] at heq
    have htext := congrArg Text.Utf8.decodeLossy heq
    rw [Text.Utf8.decodeLossy_encode, Text.Utf8.decodeLossy_encode] at htext
    have hkeys := keyPath_injective e htext
    rw [hc, hd] at hkeys
    exact hne (Subject.key_injective s hkeys)

end Verbatim

/-- A volume whose name has a blank, a letter of two octets and a sign of an escape. -/
def peculiar : Subject := .volume "é 1%"

theorem isVerbatim_peculiar : Http.IsVerbatim (peculiar.key (.ofRoot "/longhorn/")) where
  rooted := ⟨_, rfl⟩
  whole := List.all_iff_forall_prop.mp (by decide)
  closed := by
    rintro c ⟨⟩
    decide
  unescaped := by decide
  undotted := by decide

theorem isVerbatim_settings : Http.IsVerbatim (Subject.settings.key (.ofRoot "/longhorn/")) where
  rooted := ⟨_, rfl⟩
  whole := List.all_iff_forall_prop.mp (by decide)
  closed := by
    rintro c ⟨⟩
    decide
  unescaped := by decide
  undotted := by decide

theorem requests_address_their_records_peculiar :
    ∃ r r', (query (.create (peculiar.key (.ofRoot "/longhorn/")) "x")).request
        (Text.trimSlashes firstEndpoint.text) = .ok r ∧
      (query (.get (Subject.settings.key (.ofRoot "/longhorn/")))).request
        (Text.trimSlashes firstEndpoint.text) = .ok r' ∧
      Addressed firstEndpoint (.create (peculiar.key (.ofRoot "/longhorn/")) "x") r ∧
      Text.Percent.decode r.url.path.text.toList ≠
        Text.Percent.decode r'.url.path.text.toList := by
  obtain ⟨hsent, hpaths⟩ := requests_address_their_records firstEndpoint (.ofRoot "/longhorn/")
  obtain ⟨r, hr, haddressed⟩ := hsent peculiar (.create _ "x") rfl isVerbatim_peculiar
  obtain ⟨r', hr', -⟩ := hsent .settings (.get _) rfl isVerbatim_settings
  exact ⟨r, r', hr, hr', haddressed, hpaths peculiar .settings _ _ r r' rfl rfl isVerbatim_peculiar
    isVerbatim_settings hr hr' (by decide)⟩

/-- The path and the query of the request for a call. -/
def sentTo? (c : Call) : Option (String × Option String) :=
  ((query c).request (Text.trimSlashes firstEndpoint.text)).toOption.map fun r =>
    (r.url.path.text, r.url.query)

/-- Names that go elsewhere: to the key of another volume, to that of the settings, and with a
condition that the call does not have; and a root without a slash before it, whose keys are no keys
of the server. -/
theorem names_sent_elsewhere :
    sentTo? (.get ((Subject.volume "a?b").key (.ofRoot "/longhorn"))) =
        some ("/v2/keys/longhorn/volumes/a", some "b") ∧
      sentTo? (.delete ((Subject.volume "../settings").key (.ofRoot "/longhorn"))) =
        sentTo? (.delete (Subject.settings.key (.ofRoot "/longhorn"))) ∧
      sentTo? (.create ((Subject.volume "a?prevExist=true").key (.ofRoot "/longhorn")) "x") =
        some ("/v2/keys/longhorn/volumes/a", some "prevExist=true&prevExist=false") ∧
      sentTo? (.get ((Subject.volume "a").key (.ofRoot "longhorn"))) =
        some ("/v2/keyslonghorn/volumes/a", none) := by
  decide +kernel

end Etcd

end HostAgent.Store
