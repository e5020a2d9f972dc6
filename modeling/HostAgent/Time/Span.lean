namespace HostAgent.Time

/-!
# Spans of time

A length of time in nanoseconds, and its text: the greatest unit in which it reaches one, with a
fraction of as many digits as it needs.
-/

structure Span where
  nanoseconds : Nat
  deriving DecidableEq, Repr, Inhabited

namespace Span

def seconds (n : Nat) : Span := ⟨n * 1000000000⟩

def milliseconds (n : Nat) : Span := ⟨n * 1000000⟩

def wholeSeconds (s : Span) : Nat := s.nanoseconds / 1000000000

def wholeMilliseconds (s : Span) : Nat := s.nanoseconds / 1000000

def padded (width n : Nat) : List Char :=
  let ds := Nat.toDigits 10 n
  List.replicate (width - ds.length) '0' ++ ds

/-- A count of units of `10 ^ places`, its fraction without trailing zeros. -/
def inUnits (places n : Nat) : List Char :=
  let fraction := ((padded places (n % Nat.pow 10 places)).reverse.dropWhile (· == '0')).reverse
  let fraction := if places = 0 then [] else fraction
  Nat.toDigits 10 (n / Nat.pow 10 places) ++ (if fraction.isEmpty then [] else '.' :: fraction)

def text (s : Span) : String :=
  let n := s.nanoseconds
  if 1000000000 ≤ n then String.ofList (inUnits 9 n) ++ "s"
  else if 1000000 ≤ n then String.ofList (inUnits 6 n) ++ "ms"
  else if 1000 ≤ n then String.ofList (inUnits 3 n) ++ "µs"
  else String.ofList (inUnits 0 n) ++ "ns"

end Span

end HostAgent.Time
