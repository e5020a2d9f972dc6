import HostAgent.Text.Utf8

namespace HostAgent.Text

/-!
# Percent encoding

An octet outside a set of harmless characters is written `%` and two digits in base sixteen, upper
case. What is harmless depends on where the text stands.
-/

namespace Percent

def hexDigit (n : Nat) : Char :=
  if n < 10 then Char.ofNat (48 + n) else Char.ofNat (55 + n)

def octet (b : UInt8) : List Char :=
  ['%', hexDigit (b.toNat / 16), hexDigit (b.toNat % 16)]

/-- Writes every character that is not harmless by its octets. -/
def encode (harmless : Char → Bool) (s : List Char) : List Char :=
  s.flatMap fun c => if harmless c then [c] else (String.utf8EncodeChar c).flatMap octet

/-- Letters, digits and the four marks that need no escape in any part of an address. -/
def isUnreserved (c : Char) : Bool :=
  c.isAlphanum || c == '-' || c == '.' || c == '_' || c == '~'

/-- The value of a digit in base sixteen, of either case. -/
def hexValue? (c : Char) : Option Nat :=
  if '0' ≤ c ∧ c ≤ '9' then some (c.toNat - 48)
  else if 'a' ≤ c ∧ c ≤ 'f' then some (c.toNat - 87)
  else if 'A' ≤ c ∧ c ≤ 'F' then some (c.toNat - 55)
  else none

/-- The octets of a text whose triples `%XX` stand for octets; a sign `%` without two digits
stands for itself. -/
def decode : List Char → List UInt8
  | [] => []
  | '%' :: a :: b :: r =>
    match hexValue? a, hexValue? b with
    | some x, some y => UInt8.ofNat (16 * x + y) :: decode r
    | _, _ => 0x25 :: decode (a :: b :: r)
  | c :: r => String.utf8EncodeChar c ++ decode r
  termination_by s => s.length

/-- Forms keep letters, digits and `*-._`, and write a space as `+`. -/
def isFormSafe (c : Char) : Bool :=
  c.isAlphanum || c == '*' || c == '-' || c == '.' || c == '_'

def encodeForm (s : String) : String :=
  String.ofList (s.toList.flatMap fun c => if c == ' ' then ['+'] else encode isFormSafe [c])

/-- A name or value in a query, where only letters, digits and four marks stand for themselves. -/
def encodeName (s : String) : String :=
  String.ofList (encode isUnreserved s.toList)

end Percent

end HostAgent.Text
