import HostAgent.Decimal.Shortest
import HostAgent.Json.Basic

namespace HostAgent.Json

/-!
# Compact text

A value as text without blanks. Within a string only the quote, the backslash and the controls
below the space are escaped, five of the controls by a letter and the others by number.
-/

def lowerHexDigit (n : Nat) : Char :=
  if n < 10 then Char.ofNat (48 + n) else Char.ofNat (87 + n)

def escapeChar (c : Char) : List Char :=
  if c = '"' then ['\\', '"']
  else if c = '\\' then ['\\', '\\']
  else if c = '\x08' then ['\\', 'b']
  else if c = '\t' then ['\\', 't']
  else if c = '\n' then ['\\', 'n']
  else if c = '\x0c' then ['\\', 'f']
  else if c = '\r' then ['\\', 'r']
  else if c.toNat < 0x20 then
    ['\\', 'u', '0', '0', lowerHexDigit (c.toNat / 16), lowerHexDigit (c.toNat % 16)]
  else [c]

def printString (s : String) : List Char :=
  '"' :: s.toList.flatMap escapeChar ++ ['"']

def printInteger : Int → List Char
  | .ofNat n => Nat.toDigits 10 n
  | .negSucc n => '-' :: Nat.toDigits 10 (n + 1)

def printNumber : Number → List Char
  | .integer i => printInteger i
  | .float x => x.text.toList

mutual

def print : Json → List Char
  | .null => ['n', 'u', 'l', 'l']
  | .bool true => ['t', 'r', 'u', 'e']
  | .bool false => ['f', 'a', 'l', 's', 'e']
  | .number n => printNumber n
  | .string s => printString s
  | .array [] => ['[', ']']
  | .array (j :: r) => '[' :: print j ++ printItems r ++ [']']
  | .object [] => ['\x7b', '\x7d']
  | .object ((k, j) :: r) =>
    '\x7b' :: printString k ++ ':' :: print j ++ printMembers r ++ ['\x7d']

def printItems : List Json → List Char
  | [] => []
  | j :: r => ',' :: print j ++ printItems r

def printMembers : List (String × Json) → List Char
  | [] => []
  | (k, j) :: r => ',' :: printString k ++ ':' :: print j ++ printMembers r

end

def text (j : Json) : String := String.ofList j.print

end HostAgent.Json
