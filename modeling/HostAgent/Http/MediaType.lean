namespace HostAgent.Http

/-!
# Media types

The value of a content type: a type and a subtype, a suffix after the last plus sign of the
subtype, and parameters, whose values may be quoted.
-/

def isTokenChar (c : Char) : Bool :=
  c.isAlphanum || "!#$%&'*+-.^_`|~".toList.contains c

def isQuotedChar (c : Char) : Bool := c.toNat > 31 && c.toNat < 127

inductive ParameterState where
  /-- Nothing of the next parameter, or only spaces. -/
  | start
  | name
  | equals
  | value
  /-- A quote, and whether anything stands after it. -/
  | quoted (any : Bool)
  | afterQuote

/-- Whether a text is a list of parameters, from a state on. -/
def areParameters : ParameterState → List Char → Bool
  | .start, [] => true
  | .start, c :: r =>
    if c = ' ' then areParameters .start r else isTokenChar c && areParameters .name r
  | .name, [] => false
  | .name, c :: r =>
    if c = '=' then areParameters .equals r else isTokenChar c && areParameters .name r
  | .equals, [] => true
  | .equals, c :: r =>
    if c = '"' then areParameters (.quoted false) r else isTokenChar c && areParameters .value r
  | .value, [] => true
  | .value, c :: r =>
    if c = ';' then areParameters .start r else isTokenChar c && areParameters .value r
  | .quoted _, [] => false
  | .quoted any, c :: r =>
    if c = '"' ∧ any = true then areParameters .afterQuote r
    else isQuotedChar c && areParameters (.quoted true) r
  | .afterQuote, [] => true
  | .afterQuote, c :: r =>
    if c = ';' then areParameters .start r else c == ' ' && areParameters .afterQuote r

structure MediaType where
  type : List Char
  subtype : List Char
  suffix : Option (List Char)
  deriving DecidableEq, Repr

/-- The subtype and its suffix, cut at the last plus sign that does not stand in front. -/
def splitSuffix (s : List Char) : List Char × Option (List Char) :=
  let tail := (s.reverse.takeWhile (· != '+')).reverse
  let front := s.take (s.length - tail.length - 1)
  if tail.length < s.length ∧ front ≠ [] then (front, some tail) else (s, none)

/-- Reads a media type. Letters are brought to lower case. -/
def MediaType.parse (s : String) : Option MediaType :=
  match s.toList.span isTokenChar with
  | (t :: type, '/' :: r) =>
    let (sub, rest) := r.span isTokenChar
    let (subtype, suffix) := splitSuffix (sub.map Char.toLower)
    let found : MediaType := ⟨(t :: type).map Char.toLower, subtype, suffix⟩
    match rest with
    | [] => some found
    | ';' :: r => if sub ≠ [] ∧ areParameters .start r then some found else none
    | _ => none
  | _ => none

def isJsonType (s : String) : Bool :=
  s.toList.all (fun c => 32 ≤ c.toNat && c.toNat < 127 || c == '\t') &&
    match MediaType.parse s with
    | some m =>
      String.ofList m.type == "application" &&
        (String.ofList m.subtype == "json" || m.suffix == some "json".toList)
    | none => false

end HostAgent.Http
