import HostAgent.Json.Basic
import HostAgent.Json.Fault

namespace HostAgent.Json

/-!
# Numbers and strings as written

A lexeme is what a text holds in the place of a number or a string: the value that it spells or
the fault that keeps it from spelling one, and the fault that is met when it is only passed over.
Passing over asks less: a number may then be out of range, and a string may hold surrogates and
octets that make no character.
-/

/-- The characters of a text, and `none` for an octet that belongs to no character. -/
abbrev Input := List (Option Char)

def inputOf (s : String) : Input := s.toList.map some

structure Lexeme (α : Type) where
  value : Except Malformed α
  skipped : Option Malformed
  deriving Repr

namespace Lexeme

def ok {α : Type} (a : α) : Lexeme α := ⟨.ok a, none⟩

def fault {α : Type} (f : Malformed) : Lexeme α := ⟨.error f, some f⟩

end Lexeme

/-! ## Numbers -/

def digit? : Option Char → Option Nat
  | some c => if '0' ≤ c ∧ c ≤ '9' then some (c.toNat - 48) else none
  | none => none

/-- The digits at the front of an input, and the rest. -/
def takeDigits : Input → List Nat × Input
  | [] => ([], [])
  | c :: r =>
    match digit? c with
    | some d =>
      let (ds, rest) := takeDigits r
      (d :: ds, rest)
    | none => ([], c :: r)

structure Numeral where
  negative : Bool
  whole : List Nat
  fraction : Option (List Nat)
  exponent : Option (Bool × List Nat)
  deriving Repr

def maxSignificand : Nat := 18446744073709551615

def maxExponent : Int := 2147483647

/-- Appends digits to a significand for as long as it stays within sixty-four bits; with it, how
many digits were left out. -/
def appendDigits : List Nat → Nat → Nat × Nat
  | [], s => (s, 0)
  | d :: r, s =>
    if s * 10 + d ≤ maxSignificand then appendDigits r (s * 10 + d)
    else (s, r.length + 1)

/-- The number that digits spell, as far as it matters: one that is too great stays so. -/
def digitsValue (ds : List Nat) : Nat :=
  ds.foldl (fun n d => n * 10 + d) 0

/-- Multiplies by a power of ten in steps within the range of the format, rounding each. -/
def scaleByTen (f : Decimal.Binary64) (e : Int) : Except Malformed Decimal.Binary64 :=
  if e.natAbs ≤ 308 then
    let p := Decimal.Binary64.ofNat (Nat.pow 10 e.natAbs)
    if 0 ≤ e then
      let r := f.mul p
      if r.isInfinite then .error .outOfRange else .ok r
    else .ok (f.div p)
  else if f.isZero then .ok f
  else if 0 ≤ e then .error .outOfRange
  else scaleByTen (f.div (Decimal.Binary64.ofNat (Nat.pow 10 308))) (e + 308)
  termination_by e.natAbs

def clampExponent (e : Int) : Int :=
  max (-maxExponent - 1) (min maxExponent e)

def Numeral.float (n : Numeral) (significand : Nat) (places : Int) : Except Malformed Number := do
  let sign (f : Decimal.Binary64) : Number := .float (if n.negative then f.neg else f)
  match n.exponent with
  | none => return sign (← scaleByTen (Decimal.Binary64.ofNat significand) places)
  | some (negative, ds) =>
    let e : Int := digitsValue ds
    if maxExponent < e then
      if significand ≠ 0 ∧ negative = false then .error .outOfRange
      else return sign ⟨0⟩
    else
      let total := clampExponent (if negative then places - e else places + e)
      return sign (← scaleByTen (Decimal.Binary64.ofNat significand) total)

/-- The number that a numeral stands for: an integer where it is written as one and fits, and a
floating point number otherwise. -/
def Numeral.value (n : Numeral) : Except Malformed Number :=
  let (s, dropped) := appendDigits n.whole 0
  match n.fraction, n.exponent with
  | none, none =>
    if dropped ≠ 0 then n.float s dropped
    else if n.negative = false then .ok (.integer s)
    else if s = 0 ∨ 9223372036854775808 < s then
      .ok (.float (Decimal.Binary64.ofNat s).neg)
    else .ok (.integer (-(s : Int)))
  | none, some _ => n.float s dropped
  | some ds, _ =>
    let (s', left) := appendDigits ds s
    n.float s' ((dropped : Int) - ((ds.length : Int) - left))

/-- A digit is missing where the input goes on with something else, or ends. -/
def missingDigit (r : Input) : Lexeme Number :=
  match r with
  | [] => ⟨.error .endInValue, some .number⟩
  | _ :: _ => .fault .number

def readExponent (n : Numeral) (r : Input) : Lexeme Number × Option Input :=
  let (negative, r) := match r with
    | some '+' :: r => (false, r)
    | some '-' :: r => (true, r)
    | r => (false, r)
  match takeDigits r with
  | ([], rest) => (missingDigit rest, none)
  | (ds, rest) => (⟨({ n with exponent := some (negative, ds) } : Numeral).value, none⟩, some rest)

def readExponentPart (n : Numeral) (r : Input) : Lexeme Number × Option Input :=
  match r with
  | some 'e' :: r | some 'E' :: r => readExponent n r
  | r => (⟨n.value, none⟩, some r)

def readFractionPart (n : Numeral) (r : Input) : Lexeme Number × Option Input :=
  match r with
  | some '.' :: r =>
    match takeDigits r with
    | ([], rest) => (missingDigit rest, none)
    | (ds, rest) => readExponentPart { n with fraction := some ds } rest
  | r => readExponentPart n r

/-- Reads a number after its sign. A zero in front stands alone. -/
def readNumber (negative : Bool) (r : Input) : Lexeme Number × Option Input :=
  match takeDigits r with
  | ([], rest) => (missingDigit rest, none)
  | (0 :: _ :: _, _) => (.fault .number, none)
  | (ds, rest) => readFractionPart ⟨negative, ds, none, none⟩ rest

/-! ## Strings -/

def hexDigit? : Option Char → Option Nat
  | some c =>
    if '0' ≤ c ∧ c ≤ '9' then some (c.toNat - 48)
    else if 'a' ≤ c ∧ c ≤ 'f' then some (c.toNat - 87)
    else if 'A' ≤ c ∧ c ≤ 'F' then some (c.toNat - 55)
    else none
  | none => none

def hexFour? (a b c d : Option Char) : Option Nat := do
  let a ← hexDigit? a
  let b ← hexDigit? b
  let c ← hexDigit? c
  let d ← hexDigit? d
  return ((a * 16 + b) * 16 + c) * 16 + d

def octets : Option Char → Nat
  | some c => c.utf8Size
  | none => 1

/-- What is wrong with the four octets that should be digits. -/
def badHex (r : Input) : Malformed :=
  if 4 ≤ (r.take 4).foldl (fun n c => n + octets c) 0 then .escape else .endInString

def isLead (n : Nat) : Bool := 0xD800 ≤ n && n ≤ 0xDBFF

def isTrail (n : Nat) : Bool := 0xDC00 ≤ n && n ≤ 0xDFFF

def ofSurrogates (lead trail : Nat) : Char :=
  Char.ofNat ((lead - 0xD800) * 0x400 + (trail - 0xDC00) + 0x10000)

def escaped? : Option Char → Option Char
  | some '"' => some '"'
  | some '\\' => some '\\'
  | some '/' => some '/'
  | some 'b' => some '\x08'
  | some 'f' => some '\x0c'
  | some 'n' => some '\n'
  | some 'r' => some '\r'
  | some 't' => some '\t'
  | _ => none

abbrev Characters := Lexeme (List Char) × Option Input

namespace Characters

def push (c : Char) (r : Characters) : Characters :=
  (⟨r.1.value.map (c :: ·), r.1.skipped⟩, r.2)

/-- Octets without a character are found when the string has been read to its end. -/
def pushJunk (r : Characters) : Characters :=
  (⟨r.1.value.bind fun _ => .error .codePoint, r.1.skipped⟩, r.2)

/-- A fault that matters only to a reader of the string. -/
def reject (f : Malformed) (r : Characters) : Characters :=
  (⟨.error f, r.1.skipped⟩, r.2)

def stop (f : Malformed) : Characters := (.fault f, none)

end Characters

def readCharacters : Input → Characters
  | [] => .stop .endInString
  | some '"' :: r => (.ok [], some r)
  | some '\\' :: some 'u' :: a :: b :: c :: d :: r =>
    match hexFour? a b c d with
    | none => .stop (badHex [a, b, c, d])
    | some n =>
      if isTrail n then .reject .loneSurrogate (readCharacters r)
      else if isLead n then
        match r with
        | [] | [some '\\'] => .stop .endInString
        | some '\\' :: some 'u' :: a :: b :: c :: d :: r' =>
          match hexFour? a b c d with
          | none => .stop (badHex [a, b, c, d])
          | some m =>
            if isTrail m then .push (ofSurrogates n m) (readCharacters r')
            else .reject .loneSurrogate (readCharacters r')
        | some '\\' :: some 'u' :: r' => .stop (badHex r')
        | r => .reject .unpairedSurrogate (readCharacters r)
      else .push (Char.ofNat n) (readCharacters r)
  | some '\\' :: some 'u' :: r => .stop (badHex r)
  | [some '\\'] => .stop .endInString
  | some '\\' :: e :: r =>
    match escaped? e with
    | some c => .push c (readCharacters r)
    | none => .stop .escape
  | none :: r => .pushJunk (readCharacters r)
  | some c :: r =>
    if c.toNat < 0x20 then .stop .control else .push c (readCharacters r)

def readString (r : Input) : Lexeme String × Option Input :=
  let (l, rest) := readCharacters r
  (⟨l.value.map String.ofList, l.skipped⟩, rest)

end HostAgent.Json
