import HostAgent.Errno
import HostAgent.Json.Fault

namespace HostAgent.Container

/-! # Why an operation on a container failed -/

inductive SocketFailure where
  | connecting (errno : Errno)
  | closed
  deriving DecidableEq, Repr, Inhabited

def SocketFailure.message : SocketFailure → String
  | .connecting e => s!"error trying to connect: {e.fileText}"
  | .closed => "connection closed before message completed"

inductive Error where
  | http (failure : SocketFailure)
  | json (report : Json.Report)
  | api (status : Nat) (message : String)
  | notFound (id : String)
  | failed (text : String)
  deriving DecidableEq, Repr, Inhabited

def Error.message : Error → String
  | .http f => s!"HTTP error: {f.message}"
  | .json r => s!"JSON error: {r.message}"
  | .api status message => s!"API error {status}: {message}"
  | .notFound id => s!"no such container: {id}"
  | .failed text => text

end HostAgent.Container
