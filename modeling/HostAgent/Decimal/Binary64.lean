namespace HostAgent.Decimal

/-!
# Binary floating point

A number of the 64 bit binary format, held as its bits, and the exact arithmetic that rounds a
quotient of natural numbers to the nearest of them. A half goes to the even neighbour.
-/

structure Binary64 where
  bits : UInt64
  deriving DecidableEq, Repr, Inhabited

/-- The quotient rounded to the nearest natural number, a half to the even one. -/
def roundDiv (num den : Nat) : Nat :=
  let d := num / den
  let r := num % den
  if 2 * r < den then d
  else if 2 * r = den then d + d % 2
  else d + 1

namespace Binary64

def signBit : UInt64 := 0x8000000000000000

def isNegative (x : Binary64) : Bool :=
  x.bits ≥ signBit

def neg (x : Binary64) : Binary64 :=
  ⟨x.bits ^^^ signBit⟩

def unsigned (x : Binary64) : Nat :=
  x.bits.toNat % Nat.pow 2 63

def isZero (x : Binary64) : Bool :=
  x.unsigned == 0

def isInfinite (x : Binary64) : Bool :=
  x.unsigned == 0x7FF0000000000000

/-- The magnitude `m * 2 ^ q` of a finite number, as the pair of `m` and `q`. -/
def magnitude (x : Binary64) : Nat × Int :=
  let e : Nat := x.unsigned / Nat.pow 2 52
  let f : Nat := x.unsigned % Nat.pow 2 52
  if e = 0 then (f, -1074) else (f + Nat.pow 2 52, Int.ofNat e - 1075)

/-- The two parts of `2 ^ q` as a quotient. -/
def powParts (q : Int) : Nat × Nat :=
  (Nat.pow 2 q.toNat, Nat.pow 2 (-q).toNat)

/-- The number nearest to a quotient, infinity beyond the greatest finite one. -/
def ofQuotient (num den : Nat) : Binary64 :=
  if num = 0 ∨ den = 0 then ⟨0⟩ else
    let e : Int := (num.log2 : Int) - (den.log2 : Int)
    let q : Int := max (-1074) (e - 53)
    let scaled (q : Int) : Nat × Nat :=
      let p := powParts (-q)
      (num * p.1, den * p.2)
    let s := scaled q
    let q := if Nat.pow 2 53 ≤ s.1 / s.2 then q + 1 else q
    let s := scaled q
    let m := roundDiv s.1 s.2
    if m < Nat.pow 2 52 then ⟨UInt64.ofNat m⟩
    else
      let b := (q + 1075).toNat * Nat.pow 2 52 + (m - Nat.pow 2 52)
      ⟨UInt64.ofNat (min b 0x7FF0000000000000)⟩

def ofNat (n : Nat) : Binary64 := ofQuotient n 1

def mul (x y : Binary64) : Binary64 :=
  let (m, p) := x.magnitude
  let (n, q) := y.magnitude
  let s := powParts (p + q)
  ofQuotient (m * n * s.1) s.2

def div (x y : Binary64) : Binary64 :=
  let (m, p) := x.magnitude
  let (n, q) := y.magnitude
  let s := powParts (p - q)
  ofQuotient (m * s.1) (n * s.2)

example : (ofNat 1).bits = 0x3FF0000000000000 := by decide
example : (ofQuotient 1 10).bits = 0x3FB999999999999A := by decide
example : (ofNat 18446744073709551616).bits = 0x43F0000000000000 := by decide

end Binary64

end HostAgent.Decimal
