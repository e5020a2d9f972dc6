import HostAgent.Decimal.Binary64

namespace HostAgent.Decimal

/-!
# Shortest decimal text

The fewest digits that read back as the same binary number, nearest to it among those, and their
text: positional while the leading digit stands between the fifth place after the point and the
sixteenth before it, and with a signed exponent beyond.
-/

/-- A decimal number `digits * 10 ^ exponent`. -/
structure Scaled where
  digits : Nat
  exponent : Int
  deriving DecidableEq, Repr

def digitCount (n : Nat) : Nat :=
  (Nat.toDigits 10 n).length

/-- The exponent of the leading decimal digit of a positive quotient. -/
def leadingExponent (num den : Nat) : Int :=
  let e : Int := (digitCount num : Int) - (digitCount den : Int)
  if den * Nat.pow 10 e.toNat ≤ num * Nat.pow 10 (-e).toNat then e else e - 1

/-- The reals that round to `m * 2 ^ q`, as the numerators of the two ends over four times the
denominator of `2 ^ q`, and whether the ends belong to them. -/
structure Interval where
  low : Nat
  high : Nat
  den : Nat
  closed : Bool

def roundingInterval (m : Nat) (q : Int) : Interval :=
  let p := Binary64.powParts q
  let below := if m = Nat.pow 2 52 ∧ -1074 < q then 4 * m - 1 else 4 * m - 2
  ⟨below * p.1, (4 * m + 2) * p.1, 4 * p.2, m % 2 = 0⟩

def Interval.contains (i : Interval) (num den : Nat) : Bool :=
  let a := i.low * den
  let b := i.high * den
  let x := num * i.den
  if i.closed then a ≤ x && x ≤ b else a < x && x < b

/-- Takes trailing zeros from the digits into the exponent. -/
def Scaled.reduce : Nat → Scaled → Scaled
  | 0, s => s
  | n + 1, s =>
    if s.digits ≠ 0 ∧ s.digits % 10 = 0 then reduce n ⟨s.digits / 10, s.exponent + 1⟩ else s

/-- The nearest point in the interval of the two neighbours on the grid of the given unit. -/
def neighbour? (i : Interval) (num den : Nat) (unit : Int) : Option Nat :=
  let n := num * Nat.pow 10 (-unit).toNat
  let d := den * Nat.pow 10 unit.toNat
  let f := n / d
  let hit (x : Nat) : Bool := i.contains (x * Nat.pow 10 unit.toNat) (Nat.pow 10 (-unit).toNat)
  match hit f, hit (f + 1) with
  | true, true => some (roundDiv n d)
  | true, false => some f
  | false, true => some (f + 1)
  | false, false => none

/-- Tries grids of more and more digits; seventeen always suffice. -/
def shortestFrom (i : Interval) (num den : Nat) (lead : Int) : Nat → Nat → Scaled
  | 0, count => ⟨0, lead - count⟩
  | more + 1, count =>
    let unit := lead - count
    match neighbour? i num den unit with
    | some d => ⟨d, unit⟩
    | none => shortestFrom i num den lead more (count + 1)

def shortest (x : Binary64) : Scaled :=
  let (m, q) := x.magnitude
  let p := Binary64.powParts q
  let num := m * p.1
  let s := shortestFrom (roundingInterval m q) num p.2 (leadingExponent num p.2) 18 0
  s.reduce 20

/-- Where positional text ends and how an exponent is written. -/
structure Style where
  least : Int
  greatest : Int

def Scaled.text (style : Style) (s : Scaled) : List Char :=
  let ds := Nat.toDigits 10 s.digits
  let lead : Int := s.exponent + (ds.length : Int) - 1
  if lead < style.least ∨ style.greatest < lead then
    let fraction := match ds.tail with
      | [] => []
      | r => '.' :: r
    let sign := if lead < 0 then '-' else '+'
    ds.take 1 ++ fraction ++ 'e' :: sign :: Nat.toDigits 10 lead.natAbs
  else if 0 ≤ s.exponent then
    ds ++ List.replicate s.exponent.toNat '0' ++ ['.', '0']
  else if 0 ≤ lead then
    let whole := lead.toNat + 1
    ds.take whole ++ '.' :: ds.drop whole
  else
    '0' :: '.' :: List.replicate (-lead - 1).toNat '0' ++ ds

/-- Leading digits from the fifth place after the point to the sixteenth before it are written in
place. -/
def plainStyle : Style := ⟨-5, 15⟩

def Binary64.text (x : Binary64) : String :=
  let sign := if x.isNegative then ['-'] else []
  let body := if x.isZero then ['0', '.', '0'] else (shortest x).text plainStyle
  String.ofList (sign ++ body)

end HostAgent.Decimal
