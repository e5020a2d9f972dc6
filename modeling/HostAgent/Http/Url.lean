import HostAgent.Http.Address
import HostAgent.Text.Blank

namespace HostAgent.Http

/-!
# Addresses of resources

An address has a scheme, mostly a host, a path of segments, and may have a query and a fragment.
Reading one cleans it: blanks around it are dropped, names are brought to lower case, segments of
dots are resolved, and characters that may not stand in a part are written by their octets. User
names and passwords are not kept.
-/

inductive Path where
  | segments (segments : List String)
  /-- A path that does not begin with a slash. -/
  | plain (text : String)
  deriving DecidableEq, Repr, Inhabited

def Path.text : Path → String
  | .segments l => String.join (l.map fun s => "/" ++ s)
  | .plain t => t

structure Url where
  scheme : String
  host : Option String
  port : Option Nat
  path : Path
  query : Option String
  fragment : Option String
  deriving DecidableEq, Repr, Inhabited

namespace Url

/-- The schemes with a known port; one of them has no hosts of the network. -/
def defaultPort? (scheme : String) : Option Nat :=
  if scheme = "http" ∨ scheme = "ws" then some 80
  else if scheme = "https" ∨ scheme = "wss" then some 443
  else if scheme = "ftp" then some 21
  else none

def isFile (scheme : String) : Bool := scheme == "file"

def isSpecial (scheme : String) : Bool := (defaultPort? scheme).isSome || isFile scheme

def isPlain (c : Char) : Bool := 0x20 ≤ c.toNat && c.toNat < 0x7F

def inPath (c : Char) : Bool := isPlain c && !" \"#<>?`\x7b\x7d".toList.contains c

def inQuery (special : Bool) (c : Char) : Bool :=
  isPlain c && !" \"#<>".toList.contains c && !(special && c == '\'')

def inFragment (c : Char) : Bool := isPlain c && !" \"<>`".toList.contains c

def encode (harmless : Char → Bool) (s : List Char) : String :=
  String.ofList (Text.Percent.encode harmless s)

/-- Drops controls and spaces around a text, and tabs and line ends within it. -/
def clean (s : String) : List Char :=
  (Text.trimWhile (fun c => c.toNat ≤ 0x20) s.toList).filter fun c =>
    c != '\t' && c != '\n' && c != '\r'

def isSchemeChar (c : Char) : Bool := c.isAlphanum || c == '+' || c == '-' || c == '.'

/-- The scheme in front of a text, and what follows its colon. -/
def scheme? (s : List Char) : Option (String × List Char) :=
  match s.span (· != ':') with
  | (a :: r, ':' :: rest) =>
    if a.isAlpha && r.all isSchemeChar then
      some (String.ofList ((a :: r).map Char.toLower), rest)
    else none
  | _ => none

def isSlash (special : Bool) (c : Char) : Bool := c == '/' || (special && c == '\\')

/-- Whether a segment takes its place and only says where to go on from. -/
inductive Dots where
  | one
  | two
  | name
  deriving DecidableEq

/-- A dot in a segment may be written by its octet. -/
def undot : List Char → List Char
  | '%' :: '2' :: 'e' :: r | '%' :: '2' :: 'E' :: r => '.' :: undot r
  | c :: r => c :: undot r
  | [] => []

def dots (s : List Char) : Dots :=
  if undot s = ['.'] then .one else if undot s = ['.', '.'] then .two else .name

/-- A letter with a colon or a bar names a drive, which no step upwards leaves. -/
def isDrive (s : String) : Bool :=
  match s.toList with
  | [a, b] => a.isAlpha && (b == ':' || b == '|')
  | _ => false

/-- One step up from segments, the last one first. -/
def up : List String → List String
  | [] => []
  | s :: r => if isDrive s then s :: r else r

/-- The segments of a path, those of dots resolved. The second list holds, last one first, the
segments so far. -/
def resolve : List (List Char) → List String → List String
  | [], acc => acc.reverse
  | [s], acc =>
    match dots s with
    | .one => ("" :: acc).reverse
    | .two => ("" :: up acc).reverse
    | .name => (encode inPath s :: acc).reverse
  | s :: r, acc =>
    match dots s with
    | .one => resolve r acc
    | .two => resolve r (up acc)
    | .name => resolve r (encode inPath s :: acc)

/-- The segments of a path, the slash that it begins with left out. -/
def segments (special : Bool) (s : List Char) : List String :=
  let s := match s with
    | c :: r => if isSlash special c then r else c :: r
    | [] => []
  resolve (Text.splitWhere (isSlash special) s) []

/-- The port after its colon: nothing, or a number of sixteen bits. -/
def port? (s : List Char) : Option (Option Nat) :=
  if s.isEmpty then some none
  else if s.all Char.isDigit then
    let n := s.foldl (fun n c => n * 10 + (c.toNat - 48)) 0
    if n < 65536 then some (some n) else none
  else none

/-- What follows the last of the signs that end user names. -/
def afterUser (s : List Char) : List Char :=
  (s.reverse.takeWhile (· != '@')).reverse

/-- The host and what follows the colon after it; colons within brackets do not count. -/
def splitPort (s : List Char) : List Char × List Char :=
  let inside := match s with
    | '[' :: _ => (s.takeWhile (· != ']')).length
    | _ => 0
  let (a, b) := (s.drop inside).span (· != ':')
  (s.take inside ++ a, b.drop 1)

/-- A host that only needs to hold no mark. -/
def plainHost? (s : List Char) : Option (List Char) :=
  match s with
  | '[' :: _ => Address.host? s
  | s =>
    if s.any fun c => " #/:<>?@[\\]^|".toList.contains c || c == '\x00' then none
    else some (Text.Percent.encode isPlain s)

def authority? (scheme : String) (s : List Char) : Option (Option String × Option Nat) := do
  let (h, p) := splitPort (afterUser s)
  let port ← port? p
  let port := if port = defaultPort? scheme then none else port
  if isFile scheme then
    if h.isEmpty then return (none, none)
    let host ← Address.host? h
    return (if host = "localhost".toList then none else some (String.ofList host), none)
  else if isSpecial scheme then
    let host ← Address.host? h
    return (some (String.ofList host), port)
  else if h.isEmpty then
    if s.isEmpty then return (some "", none) else none
  else
    let host ← plainHost? h
    return (some (String.ofList host), port)

def pathAfterHost (special : Bool) (s : List Char) : Path :=
  if s.isEmpty && !special then .segments [] else .segments (segments special s)

def parse (text : String) : Option Url := do
  let (scheme, rest) ← scheme? (clean text)
  let special := isSpecial scheme
  let (rest, fragment) := match rest.span (· != '#') with
    | (r, '#' :: f) => (r, some (encode inFragment f))
    | (r, _) => (r, none)
  let opens := rest.takeWhile (isSlash special)
  if opens.length ≥ 2 ∨ (special ∧ !isFile scheme) then
    let rest := rest.drop (if special && !isFile scheme then opens.length else 2)
    let (front, query) := match rest.span (· != '?') with
      | (r, '?' :: q) => (r, some (encode (inQuery special) q))
      | (r, _) => (r, none)
    let (authority, path) := front.span fun c => !isSlash special c
    let (host, port) ← authority? scheme authority
    return ⟨scheme, host, port, pathAfterHost special path, query, fragment⟩
  else
    let (front, query) := match rest.span (· != '?') with
      | (r, '?' :: q) => (r, some (encode (inQuery special) q))
      | (r, _) => (r, none)
    let path := if special || opens.length ≥ 1 then .segments (segments special front)
      else .plain (encode isPlain front)
    return ⟨scheme, none, none, path, query, fragment⟩

/-! ## Text -/

/-- The path and the query, as a request asks for them. -/
def target (u : Url) : String :=
  u.path.text ++ (match u.query with
    | some q => "?" ++ q
    | none => "")

def text (u : Url) : String :=
  let authority := match u.host with
    | some h => "//" ++ h ++ (match u.port with
      | some p => s!":{p}"
      | none => "")
    | none => if isFile u.scheme then "//" else ""
  u.scheme ++ ":" ++ authority ++ u.target ++ (match u.fragment with
    | some f => "#" ++ f
    | none => "")

/-- Adds pairs to the query; a query that stays empty is dropped. -/
def addQuery (u : Url) (pairs : List (String × String)) : Url :=
  let added := pairs.map fun e => Text.Percent.encodeForm e.1 ++ "=" ++ Text.Percent.encodeForm e.2
  let present := match u.query with
    | some q => if q.isEmpty then [] else [q]
    | none => []
  let query := "&".intercalate (present ++ added)
  { u with query := if query.isEmpty then none else some query }

def isReachable (u : Url) : Bool :=
  u.host.isSome && (u.scheme == "http" || u.scheme == "https")

end Url

end HostAgent.Http
