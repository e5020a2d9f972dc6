import HostAgent.Config.Setting

namespace HostAgent.Config

/-!
# Arguments and variables

A value is attached to its flag by a sign of equality, or is the argument after it, in which case
it must not begin with a dash. An attached value counts at once; one that stands alone is only
looked at when the next flag comes, or at the end. An argument that is no flag and no value of one
is reported before such a value.
-/

inductive Argument where
  /-- Two dashes, after which nothing is a flag. -/
  | escape
  | long (name : String) (value : Option String)
  /-- A dash and letters, of which the first one counts. -/
  | short (letter : Char)
  | plain (text : String)
  deriving DecidableEq, Repr

def Argument.ofString (s : String) : Argument :=
  match s.toList with
  | ['-', '-'] => .escape
  | '-' :: '-' :: r =>
    match r.span (· != '=') with
    | (name, _ :: value) => .long (String.ofList name) (some (String.ofList value))
    | (name, []) => .long (String.ofList name) none
  | '-' :: c :: _ => .short c
  | _ => .plain s

inductive Flag where
  | setting (s : Setting)
  | help
  | version
  deriving DecidableEq, Repr

namespace Flag

def ofName? (name : String) : Option Flag :=
  if name = "help" then some .help
  else if name = "version" then some .version
  else (Setting.ofFlag? name).map .setting

def ofLetter? (c : Char) : Option Flag :=
  if c = 'h' then some .help else if c = 'V' then some .version else none

end Flag

/-- A flag whose value stands alone, and the value, if it came already. -/
abbrev Pending := Option (Setting × Option String)

def settle (p : Pending) (g : Given) : Except Fault Given :=
  match p with
  | none => .ok g
  | some (_, none) => .error .unusable
  | some (s, some text) => g.accept s text

def turnOn (g : Given) : (s : Setting) → Except Fault Given
  | .simulated => if (g .simulated).isSome then .error .repeated else .ok (g.set .simulated true)
  | _ => .error .unusable

def readArguments : List String → Pending → Given → Except Fault Given
  | [], p, g => settle p g
  | a :: rest, p, g =>
    match Argument.ofString a with
    | .escape => if rest.isEmpty then settle p g else .error .unknown
    | .plain text =>
      match p with
      | some (s, none) => readArguments rest (some (s, some text)) g
      | _ => .error .unknown
    | .short c =>
      match Flag.ofLetter? c with
      | some .help => do
        let _ ← settle p g
        .error .help
      | some .version => do
        let _ ← settle p g
        .error .version
      | _ => .error .unknown
    | .long name value =>
      match Flag.ofName? name, value with
      | none, _ => .error .unknown
      | some (.setting s), some text =>
        if s.kind = .switch then .error .surplus
        else do
          let g ← settle p g
          readArguments rest none (← g.accept s text)
      | some (.setting s), none => do
        let g ← settle p g
        if s.kind = .switch then readArguments rest none (← turnOn g s)
        else readArguments rest (some (s, none)) g
      | some _, some _ => .error .surplus
      | some .help, none => do
        let _ ← settle p g
        .error .help
      | some .version, none => do
        let _ ← settle p g
        .error .version

@[simp] theorem readArguments_nil (p : Pending) (g : Given) :
    readArguments [] p g = settle p g := by
  rw [readArguments]

def readVariable (env : String → Option String) (g : Given) (s : Setting) : Except Fault Given :=
  if (g s).isSome then .ok g
  else
    match env s.variableName with
    | none => .ok g
    | some text => g.accept s text

/-- What arguments and, where they are silent, variables give. -/
def read (args : List String) (env : String → Option String) : Except Fault Given := do
  Setting.all.foldlM (readVariable env) (← readArguments args none .nothing)

end HostAgent.Config
