import HostAgent.Text.Blank
import HostAgent.Time.Fault
import HostAgent.Time.Timestamp

namespace HostAgent.Time

/-!
# Reading moments

Moments are read from a date and a time of day with a distance from universal time. Blanks may
stand before numbers and marks, the two halves may be parted by a letter or a space, and a
fraction may have any number of digits, of which nine count.
-/

abbrev Scan (α : Type) := List Char → Except Fault (α × List Char)

def skipBlanks (s : List Char) : List Char := s.dropWhile Text.isBlank

def isDigit (c : Char) : Bool := '0' ≤ c && c ≤ '9'

def digitValue (c : Char) : Nat := c.toNat - 48

def maxNumber : Nat := 9223372036854775807

/-- The value of at most `width` digits, and the rest. -/
def digitsFrom : (width : Nat) → (value : Nat) → Scan Nat
  | 0, n, s => .ok (n, s)
  | _ + 1, n, [] => .ok (n, [])
  | w + 1, n, c :: r =>
    if isDigit c then
      let n := n * 10 + digitValue c
      if maxNumber < n then .error .outOfRange else digitsFrom w n r
    else .ok (n, c :: r)

/-- A number of at least one digit and at most `width`. -/
def scanNumber (width : Nat) : Scan Nat
  | [] => .error .tooShort
  | c :: r => if isDigit c then digitsFrom width 0 (c :: r) else .error .invalid

/-- A year: four digits, or any number of them after a sign. -/
def scanYear : Scan Int := fun s =>
  let checked (n : Int) (r : List Char) : Except Fault (Int × List Char) :=
    if -2147483648 ≤ n ∧ n < 2147483648 then .ok (n, r) else .error .outOfRange
  match skipBlanks s with
  | '-' :: r => do
    let (n, r) ← scanNumber r.length r
    checked (-(n : Int)) r
  | '+' :: r => do
    let (n, r) ← scanNumber r.length r
    checked n r
  | s => do
    let (n, r) ← scanNumber 4 s
    checked n r

def scanField (low high : Nat) : Scan Nat := fun s => do
  let (n, r) ← scanNumber 2 (skipBlanks s)
  if low ≤ n ∧ n ≤ high then return (n, r) else throw .outOfRange

/-- A mark, blanks before it included. -/
def scanMark (mark : Char) : Scan Unit := fun s =>
  match skipBlanks s with
  | [] => .error .tooShort
  | c :: r => if c = mark then .ok ((), r) else .error .invalid

/-- The nanoseconds of a fraction, if there is one. -/
def scanFraction : Scan Nat
  | '.' :: r => do
    let (n, rest) ← scanNumber 9 r
    return (n * Nat.pow 10 (9 - (r.length - rest.length)), rest.dropWhile isDigit)
  | s => .ok (0, s)

/-- Two digits that must be there, at least as octets. -/
def scanPair : Scan Nat
  | a :: b :: r =>
    if isDigit a && isDigit b then .ok (digitValue a * 10 + digitValue b, r)
    else .error .invalid
  | [a] => if a.toNat < 0x80 then .error .tooShort else .error .invalid
  | [] => .error .tooShort

def isSeparator (c : Char) : Bool := c == ':' || Text.isBlank c

/-- Hours and minutes after the sign, in minutes. -/
def scanDistance : Scan Nat := fun s => do
  let (hours, r) ← scanPair s
  let (minutes, r) ← scanPair (r.dropWhile isSeparator)
  if minutes < 60 then return (hours * 60 + minutes, r) else throw .outOfRange

/-- The distance from universal time in minutes, to the east. -/
def scanZone : Scan Int
  | [] => .error .tooShort
  | c :: r =>
    if c = 'Z' ∨ c = 'z' then .ok (0, r)
    else if c = '+' then do
      let (n, r) ← scanDistance r
      return ((n : Int), r)
    else if c = '-' ∨ c = '−' then do
      let (n, r) ← scanDistance r
      return (-(n : Int), r)
    else .error .invalid

/-- The zone after blanks; its three letters stand for universal time. -/
def scanZoneName : Scan Int := fun s =>
  match skipBlanks s with
  | a :: b :: c :: r =>
    if [a, b, c].map Char.toUpper = ['U', 'T', 'C'] then .ok (0, r)
    else scanZone (a :: b :: c :: r)
  | s => scanZone s

def scanParting : Scan Unit
  | [] => .error .tooShort
  | c :: r => if c = 't' ∨ c = 'T' ∨ c = ' ' then .ok ((), r) else .error .invalid

/-- The moment of its fields, the seconds from zero to sixty. -/
def ofLocal (year : Int) (month day hour minute second nano : Nat) (east : Int) :
    Except Fault Timestamp :=
  let (second, nano) := if second = 60 then (59, nano + 1000000000) else (second, nano)
  match Date.ofFields? year month day with
  | none => .error .outOfRange
  | some date =>
    match Timestamp.ofFields? date hour minute second nano with
    | none => .error .outOfRange
    | some t =>
      if 1440 ≤ east.natAbs then .error .outOfRange
      else
        match t.addMinutes? (-east) with
        | none => .error .impossible
        | some t => .ok t

def Timestamp.read (s : List Char) : Except Fault Timestamp := do
  let (year, s) ← scanYear s
  let (_, s) ← scanMark '-' s
  let (month, s) ← scanField 1 12 s
  let (_, s) ← scanMark '-' s
  let (day, s) ← scanField 1 31 s
  let (_, s) ← scanParting s
  let (hour, s) ← scanField 0 23 s
  let (_, s) ← scanMark ':' s
  let (minute, s) ← scanField 0 59 s
  let (_, s) ← scanMark ':' s
  let (second, s) ← scanField 0 60 s
  let (nano, s) ← scanFraction s
  let (east, s) ← scanZoneName s
  if (skipBlanks s).isEmpty then ofLocal year month day hour minute second nano east
  else throw .tooLong

end HostAgent.Time
