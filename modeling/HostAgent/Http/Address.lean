import HostAgent.Text.Percent
import HostAgent.Text.Split

namespace HostAgent.Http

/-!
# Hosts in addresses

The part of an address that names a machine: a domain, in lower case; an address of four octets, of
which any notation is brought to the dotted decimal one; or one of eight groups in brackets, with
its longest run of zeros left out.
-/

namespace Address

/-- The value of digits in a base, if all of them are digits there. -/
def digits? (base : Nat) (s : List Char) : Option Nat :=
  s.foldlM (fun n c => do
    let d ← Text.Percent.hexValue? c
    if d < base then some (n * base + d) else none) 0

/-- A number of an address of four octets: in base sixteen after `0x`, in base eight after `0`. -/
def ipv4Number? : List Char → Option Nat
  | [] => none
  | '0' :: 'x' :: r | '0' :: 'X' :: r => digits? 16 r
  | '0' :: c :: r => digits? 8 (c :: r)
  | s => digits? 10 s

/-- The parts of a name between its dots, without an empty one at the end. -/
def parts (s : List Char) : List (List Char) :=
  let ps := Text.splitWhere (· == '.') s
  match ps.getLast? with
  | some [] => if ps.length > 1 then ps.dropLast else ps
  | _ => ps

/-- A name whose last part is a number has to be an address of four octets. -/
def endsInNumber (s : List Char) : Bool :=
  match (parts s).getLast? with
  | some p => (!p.isEmpty && p.all Char.isDigit) ||
      (match p with
        | '0' :: 'x' :: _ | '0' :: 'X' :: _ => (ipv4Number? p).isSome
        | _ => false)
  | none => false

def ipv4? (s : List Char) : Option Nat := do
  let ps := parts s
  if ps.length > 4 then none
  let ns ← ps.mapM ipv4Number?
  let last ← ns.getLast?
  if ns.dropLast.any (· > 255) then none
  if last ≥ Nat.pow 256 (5 - ns.length) then none
  let front := ns.dropLast.zipIdx.map fun e => e.1 * Nat.pow 256 (3 - e.2)
  return front.foldl Nat.add last

def decimal (n : Nat) : List Char := Nat.toDigits 10 n

def ipv4Text (n : Nat) : List Char :=
  decimal (n / 16777216) ++ '.' :: decimal (n / 65536 % 256) ++ '.' ::
    decimal (n / 256 % 256) ++ '.' :: decimal (n % 256)

/-- A group of one to four digits in base sixteen. -/
def group? (s : List Char) : Option Nat :=
  if s.isEmpty ∨ s.length > 4 then none else digits? 16 s

/-- The two groups of a strict dotted address. -/
def dottedGroups? (s : List Char) : Option (List Nat) := do
  let ps := Text.splitWhere (· == '.') s
  if ps.length ≠ 4 then none
  let ns ← ps.mapM fun p => do
    if p.isEmpty ∨ p.length > 3 ∨ (p.length > 1 ∧ p.head? = some '0') then none
    let n ← digits? 10 p
    if n > 255 then none else some n
  match ns with
  | [a, b, c, d] => some [a * 256 + b, c * 256 + d]
  | _ => none

/-- Groups between colons; the last may be a dotted address. -/
def groups? (s : List Char) : Option (List Nat) :=
  if s.isEmpty then some []
  else
    let ps := Text.splitWhere (· == ':') s
    match ps.getLast? with
    | none => none
    | some last => do
      let front ← ps.dropLast.mapM group?
      let back ← if last.contains '.' then dottedGroups? last else (group? last).map ([·])
      return front ++ back

/-- The text before the first two colons in a row, and the text after them. -/
def splitDouble : List Char → Option (List Char × List Char)
  | ':' :: ':' :: r => some ([], r)
  | [] => none
  | c :: r => (splitDouble r).map fun e => (c :: e.1, e.2)

/-- The eight groups of an address; two colons in a row stand for zeros. -/
def ipv6? (s : List Char) : Option (List Nat) :=
  match splitDouble s with
  | none => do
    let gs ← groups? s
    if gs.length = 8 then some gs else none
  | some (a, b) => do
    let front ← groups? a
    let back ← groups? b
    if front.length + back.length > 7 ∨ a.contains '.' then none
    return front ++ List.replicate (8 - front.length - back.length) 0 ++ back

/-- Where the longest run of at least two zeros begins, and its length; the first of equals. -/
def longestZeros (gs : List Nat) : Nat × Nat :=
  let run (i : Nat) : Nat := ((gs.drop i).takeWhile (· == 0)).length
  (List.range gs.length).foldl (fun best i => if run i > max 1 best.2 then (i, run i) else best)
    (0, 0)

def hexGroups (gs : List Nat) : List Char :=
  [':'].intercalate (gs.map fun g => Nat.toDigits 16 g)

def ipv6Text (gs : List Nat) : List Char :=
  let (start, count) := longestZeros gs
  if count = 0 then hexGroups gs
  else hexGroups (gs.take start) ++ [':', ':'] ++ hexGroups (gs.drop (start + count))

def isForbidden (c : Char) : Bool :=
  c.toNat ≤ 0x20 || c.toNat ≥ 0x7F || "#%/:<>?@[\\]^|".toList.contains c

def host? (s : List Char) : Option (List Char) :=
  match s with
  | '[' :: r =>
    if r.getLast? = some ']' then
      (ipv6? r.dropLast).map fun gs => '[' :: ipv6Text gs ++ [']']
    else none
  | s =>
    let d := (Text.Utf8.decodeLossy (Text.Percent.decode s)).toList.map Char.toLower
    if d.isEmpty ∨ d.any isForbidden then none
    else if endsInNumber d then (ipv4? d).map ipv4Text
    else some d

end Address

end HostAgent.Http
