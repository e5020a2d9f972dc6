import HostAgent.Error
import HostAgent.Http.Exchange
import HostAgent.Http.Status
import HostAgent.Record.Host

namespace HostAgent

/-!
# Asking other agents

A request for another host is posted to the agent there. Its answer is the instance, or the kind
and the message of the error that the request ended in.
-/

namespace Peer

abbrev Op (α : Type) := ExceptT AgentError (Task Http.interface) α

def schedulePath : String := "/v1/schedule"

/-- How long an agent waits for the answer of another one, whatever that one waits for. -/
def patience : Time.Span := .seconds 180

def outcome (host : Host) (r : Http.Response) : Result Instance :=
  if r.isSuccess then
    match Record.ofInput (Text.Utf8.symbols r.body) with
    | .ok i => .ok i
    | .error _ =>
      .error (.connectivity
        s!"invalid response from host {host.uuid}: {Http.Failure.decoding.message}")
  else
    match (Record.ofString r.text : Except Json.Report ErrorBody) with
    | .ok b => .error (.remote host.uuid b.code b.message)
    | .error _ =>
      .error (.connectivity s!"host {host.uuid} answered {Http.statusText r.status}: {r.text}")

def unreached (host : Host) (f : Http.Failure) : AgentError :=
  .connectivity s!"failed to reach host {host.uuid}: {f.message}"

def forward (host : Host) (r : Request) : Op Instance :=
  match Http.address? ("http://" ++ host.address ++ schedulePath) with
  | .error f => throw (unreached host f)
  | .ok url => do
    let request := ⟨.post, url, some "application/json", Text.Utf8.encode (Record.text r)⟩
    match ← ExceptT.lift (Task.call (I := Http.interface) request) with
    | .answered response => ExceptT.mk (.done (outcome host response))
    | .refused | .timedOut | .closed => throw (unreached host (.sending url.text))

end Peer

end HostAgent
