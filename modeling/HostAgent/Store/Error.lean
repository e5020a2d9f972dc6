import HostAgent.Http.Failure
import HostAgent.Json.Fault

namespace HostAgent.Store

/-! # Why an operation on the store failed -/

inductive Error where
  | http (failure : Http.Failure)
  | json (report : Json.Report)
  | backend (status : Nat) (message : String)
  | conflict (key : String)
  | unavailable (detail : String)
  deriving DecidableEq, Repr, Inhabited

def Error.message : Error → String
  | .http f => s!"HTTP error: {f.message}"
  | .json r => s!"JSON error: {r.message}"
  | .backend status message => s!"backend error {status}: {message}"
  | .conflict key => s!"write conflict on {key}"
  | .unavailable detail => s!"no reachable endpoint: {detail}"

def Error.isConflict : Error → Bool
  | .conflict _ => true
  | _ => false

end HostAgent.Store
