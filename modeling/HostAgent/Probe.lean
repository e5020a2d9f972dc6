import HostAgent.Error
import HostAgent.Http.Exchange
import HostAgent.Task

namespace HostAgent.Probe

/-!
# Waiting for readiness

A wait ends well when an effect shows before its budget is used up: a server answers any request,
or a path exists.
-/

inductive Wait where
  | http (url : String) (budget : Time.Span)
  | path (path : String) (budget : Time.Span)
  deriving DecidableEq, Repr

/-- What a wait is for, as messages say it. -/
def Wait.target : Wait → String
  | .http u _ => u
  | .path p _ => p

def Wait.budget : Wait → Time.Span
  | .http _ b | .path _ b => b

abbrev interface : Interface := ⟨Wait, fun _ => Except ProbeError Unit⟩

/-- What a wait comes to, given what each look within its budget showed. -/
def Wait.poll (w : Wait) (looks : List Bool) : Except ProbeError Unit :=
  if looks.any id then .ok () else .error (.timeout w.target w.budget)

/-- Whether a look at a server shows that it is there: any answer does, and nothing else. -/
def answers : Http.Outcome → Bool
  | .answered _ => true
  | .refused | .timedOut | .closed => false

end HostAgent.Probe
