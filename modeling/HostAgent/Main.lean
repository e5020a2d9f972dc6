import HostAgent.Api
import HostAgent.Config

namespace HostAgent

/-!
# The command line

Shows the configuration that the arguments and the variables of the environment give, or says why
they give none.
-/

namespace Config

def Fault.message : Fault → String
  | .help | .version => ""
  | .unknown => "unexpected argument"
  | .unusable => "a value is required or not one of the possible values"
  | .malformed => "invalid value"
  | .repeated => "the argument cannot be used multiple times"
  | .surplus => "unexpected value for an argument that takes none"

def Setting.usage (s : Setting) : String :=
  let value := if s.kind = .switch then "" else " <VALUE>"
  s!"  --{s.flagName}{value}  [env: {s.variableName}]\n"

def usage : String :=
  "Usage: lhorc-agent [OPTIONS]\n\nOptions:\n" ++ String.join (Setting.all.map Setting.usage) ++
    "  -h, --help\n  -V, --version\n"

def environment : IO (String → Option String) := do
  let set ← Setting.all.mapM fun s => return (s.variableName, ← IO.getEnv s.variableName)
  return fun name => (set.lookup name).join

/-- Shows what the arguments give, and answers the code to exit with. -/
def present (args : List String) : IO UInt32 := do
  match parse args (← environment) with
  | .error .help =>
    IO.print usage
    return 0
  | .error .version =>
    IO.println s!"lhorc-agent {Api.version}"
    return 0
  | .error fault =>
    IO.eprintln s!"error: {fault.message}"
    return 2
  | .ok config =>
    match config.validate with
    | .error e =>
      IO.eprintln s!"Error: {e.message}"
      return 1
    | .ok () =>
      IO.println (Json.object config.members).text
      return 0

end Config

end HostAgent

def main (args : List String) : IO UInt32 :=
  HostAgent.Config.present args
