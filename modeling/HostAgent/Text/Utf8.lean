namespace HostAgent.Text

/-!
# Octets and characters

Text as a sequence of octets, in UTF-8. Octets that form no character are reported in the longest
pieces that could still have begun one, which is how many replacement characters stand for them.
-/

namespace Utf8

def encode (s : String) : List UInt8 :=
  s.toList.flatMap String.utf8EncodeChar

/-- A piece of a sequence of octets: a character, or octets that belong to none. -/
inductive Chunk where
  | char (c : Char)
  | junk (octets : Nat)
  deriving DecidableEq, Repr

def Chunk.char? : Chunk → Option Char
  | .char c => some c
  | .junk _ => none

def Chunk.shown : Chunk → Char
  | .char c => c
  | .junk _ => '\uFFFD'

/-- A piece as single symbols, one for each octet of junk. -/
def Chunk.symbols : Chunk → List (Option Char)
  | .char c => [some c]
  | .junk n => List.replicate n none

/-- A character of which some octets were read: its value so far, how many octets that were, how
many are owed, and the bounds of the next one. -/
structure Pending where
  value : Nat
  octets : Nat
  owed : Nat
  low : UInt8
  high : UInt8

def begin (b : UInt8) : Chunk ⊕ Pending :=
  if b < 0x80 then .inl (.char (Char.ofNat b.toNat))
  else if b < 0xC2 then .inl (.junk 1)
  else if b < 0xE0 then .inr ⟨b.toNat - 0xC0, 1, 1, 0x80, 0xBF⟩
  else if b == 0xE0 then .inr ⟨0, 1, 2, 0xA0, 0xBF⟩
  else if b == 0xED then .inr ⟨0xD, 1, 2, 0x80, 0x9F⟩
  else if b < 0xF0 then .inr ⟨b.toNat - 0xE0, 1, 2, 0x80, 0xBF⟩
  else if b == 0xF0 then .inr ⟨0, 1, 3, 0x90, 0xBF⟩
  else if b < 0xF4 then .inr ⟨b.toNat - 0xF0, 1, 3, 0x80, 0xBF⟩
  else if b == 0xF4 then .inr ⟨4, 1, 3, 0x80, 0x8F⟩
  else .inl (.junk 1)

/-- The next octet of a pending character, if it is within its bounds. -/
def Pending.push (p : Pending) (b : UInt8) : Option (Chunk ⊕ Pending) :=
  if p.low ≤ b ∧ b ≤ p.high then
    let value := p.value * 64 + (b.toNat - 0x80)
    if p.owed ≤ 1 then some (.inl (.char (Char.ofNat value)))
    else some (.inr ⟨value, p.octets + 1, p.owed - 1, 0x80, 0xBF⟩)
  else none

/-- The pieces of a sequence of octets, after what may be pending. -/
def chunksFrom : Option Pending → List UInt8 → List Chunk
  | none, [] => []
  | some p, [] => [.junk p.octets]
  | none, b :: r =>
    match begin b with
    | .inl c => c :: chunksFrom none r
    | .inr p => chunksFrom (some p) r
  | some p, b :: r =>
    match p.push b with
    | some (.inl c) => c :: chunksFrom none r
    | some (.inr q) => chunksFrom (some q) r
    | none =>
      .junk p.octets ::
        match begin b with
        | .inl c => c :: chunksFrom none r
        | .inr q => chunksFrom (some q) r

def chunks (b : List UInt8) : List Chunk := chunksFrom none b

/-- The characters and, as `none`, the octets that belong to no character. -/
def symbols (b : List UInt8) : List (Option Char) :=
  (chunks b).flatMap Chunk.symbols

/-- The text of a sequence of octets, if all of them belong to characters. -/
def decode? (b : List UInt8) : Option String :=
  ((chunks b).mapM Chunk.char?).map String.ofList

/-- The text of a sequence of octets, each piece that is no character replaced. -/
def decodeLossy (b : List UInt8) : String :=
  String.ofList ((chunks b).map Chunk.shown)

end Utf8

end HostAgent.Text
