import HostAgent.Api
import HostAgent.Proofs.Record.Sent

namespace HostAgent

/-!
# Answers between agents

A request arrives as it was sent, and an answer means what it was made of: the instance, or the
kind and the whole message of the error.
-/

def Request.sent (r : Request) : Api.Call :=
  ⟨.post, Peer.schedulePath, some "application/json", Text.Utf8.encode (Record.text r)⟩

/-- A request as it is posted to the agent of another host. -/
def Request.posted (r : Request) (url : Http.Url) : Http.Request :=
  ⟨.post, url, some "application/json", Text.Utf8.encode (Record.text r)⟩

/-- Whether the body of a request is not too long to be received. -/
structure Request.Fits (r : Request) : Prop where
  length_le : (Text.Utf8.encode (Record.text r)).length ≤ Api.bodyLimit

theorem Request.fits_of_print {r : Request}
    (h : 4 * (Record.toJson r).print.length ≤ Api.bodyLimit) : r.Fits where
  length_le := by
    refine (Text.Utf8.length_encode_le _).trans ?_
    rw [Record.text, Json.text, String.toList_ofList]
    exact h

namespace Api

theorem isJsonType_json : Http.isJsonType "application/json" = true := by rfl

theorem readRequest_of_read {c : Call} {r : Request}
    (htype : c.contentType = some "application/json") (hbody : c.body.length ≤ bodyLimit)
    (hread : Record.ofInput (Text.Utf8.symbols c.body) = .ok r) : readRequest c = .ok r := by
  rw [readRequest, htype, Option.map_some, Option.getD_some, isJsonType_json]
  rw [if_neg (by decide), if_neg (Nat.not_lt.mpr hbody), hread]

theorem readRequest_sent {r : Request} (hr : r.IsPlain) (hfits : r.Fits) :
    readRequest r.sent = .ok r := by
  have htype : r.sent.contentType = some "application/json" := by
    unfold Request.sent
    with_reducible rfl
  have hbody : r.sent.body = Text.Utf8.encode (Record.text r) := by
    unfold Request.sent
    with_reducible rfl
  apply readRequest_of_read htype
  · rw [hbody]
    exact hfits.length_le
  · rw [hbody]
    exact hr.kept.ofInput_encode

/-- An agent carries out what another one has sent, and answers with what it came to. -/
theorem respond_sent (x : Executor) (now : Time.Timestamp) {r : Request} (hr : r.IsPlain)
    (hfits : r.Fits) :
    respond x now r.sent = (x.process r).run.bind fun result => .done (.ofResult result) := by
  have hpath : r.sent.path = Peer.schedulePath := by
    unfold Request.sent
    with_reducible rfl
  have hmethod : r.sent.method = .post := by
    unfold Request.sent
    with_reducible rfl
  rw [respond, hpath, if_neg (by decide), if_pos rfl, hmethod]
  simp only [readRequest_sent hr hfits]

def Reply.response (r : Reply) : Http.Response := ⟨r.status, r.body⟩

end Api

theorem ErrorKind.isSuccess_eq_false (k : ErrorKind) (body : Http.Body) :
    Http.Response.isSuccess ⟨k.status, body⟩ = false := by
  cases k <;> rfl

namespace Peer

theorem forward_run {h : Host} {url : Http.Url} (r : Request)
    (haddress : Http.address? ("http://" ++ h.address ++ schedulePath) = .ok url) :
    (forward h r).run = .ask (r.posted url) fun
      | .answered response => .done (outcome h response)
      | .refused | .timedOut | .closed => .done (.error (unreached h (.sending url.text))) := by
  unfold forward Request.posted
  rw [haddress]
  refine congrArg (Task.ask (I := Http.interface) _) (funext fun o => ?_)
  cases o with
  | answered response => rfl
  | refused => rfl
  | timedOut => rfl
  | closed => rfl

/-- An answer that does not come is reported with the name of the host and the URL. -/
theorem unreached_sending (h : Host) (url : String) :
    unreached h (.sending url) = .connectivity
      s!"failed to reach host {h.uuid}: error sending request for url ({url})" := by
  have hwords : toString ": " ++ toString "error sending request for url (" =
      toString ": error sending request for url (" := by decide
  refine congrArg AgentError.connectivity ?_
  change _ ++ (toString "error sending request for url (" ++ toString url ++ toString ")") = _
  rw [← hwords]
  simp only [String.append_assoc]

theorem outcome_of_instance {h : Host} {r : Http.Response} {i : Instance}
    (hsuccess : r.isSuccess = true) (hread : Record.ofInput (Text.Utf8.symbols r.body) = .ok i) :
    outcome h r = .ok i := by
  rw [outcome, if_pos hsuccess, hread]

theorem outcome_of_error {h : Host} {r : Http.Response} {b : ErrorBody}
    (hfailure : r.isSuccess = false)
    (hread : (Record.ofString r.text : Except Json.Report ErrorBody) = .ok b) :
    outcome h r = .error (.remote h.uuid b.code b.message) := by
  rw [outcome, hfailure, if_neg Bool.false_ne_true, hread]

/-- What another agent makes of an answer is the result, with the host put to an error. -/
theorem outcome_ofResult (h : Host) (result : Result Instance) :
    outcome h (Api.Reply.ofResult result).response =
      result.mapError fun e => .remote h.uuid e.kind e.message := by
  cases result with
  | ok i =>
    have hbody : (Api.Reply.ofResult (.ok i)).response.body =
        Text.Utf8.encode (Record.text i) := by
      unfold Api.Reply.response Api.Reply.ofResult Api.Reply.json Record.text
      with_reducible rfl
    apply outcome_of_instance
    · rfl
    · rw [hbody]
      exact i.kept.ofInput_encode
  | error e =>
    have hbody : (Api.Reply.ofResult (.error e)).response.body =
        Text.Utf8.encode (Record.text (ErrorBody.ofError e)) := by
      unfold Api.Reply.response Api.Reply.ofResult Api.Reply.ofError Api.Reply.json Record.text
      with_reducible rfl
    apply outcome_of_error (b := ErrorBody.ofError e)
    · exact e.kind.isSuccess_eq_false _
    · rw [Http.Response.text, hbody, Text.Utf8.decodeLossy_encode, Record.ofString_text]

end Peer

end HostAgent
