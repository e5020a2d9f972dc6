namespace HostAgent.Http

/-!
# Requests that failed

Why a request over the network brought no answer that could be used.
-/

inductive Failure where
  /-- The address cannot be asked: it is no address at all, or one without a host or with an
  unknown scheme. -/
  | badAddress (url : Option String)
  /-- The request could not be sent, or its answer did not come. -/
  | sending (url : String)
  /-- The answer is not what it should be. -/
  | decoding
  deriving DecidableEq, Repr, Inhabited

def Failure.message : Failure → String
  | .badAddress none => "builder error"
  | .badAddress (some url) => s!"builder error for url ({url})"
  | .sending url => s!"error sending request for url ({url})"
  | .decoding => "error decoding response body"

end HostAgent.Http
