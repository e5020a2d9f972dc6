namespace HostAgent

/-! # Random identifiers

An identifier has 128 bits, of which one that was made at random says so in six. It is written in
base sixteen, lower case, in five groups.
-/

structure Uuid where
  bits : BitVec 128
  deriving DecidableEq, Repr

namespace Uuid

/-- The bits that say how an identifier was made. -/
def fixedBits : BitVec 128 := 0xF000C000000000000000#128

/-- What they are in one made at random: its version is four, its variant the first one. -/
def randomMark : BitVec 128 := 0x40008000000000000000#128

def ofRandom (r : BitVec 128) : Uuid := ⟨(r &&& ~~~fixedBits) ||| randomMark⟩

/-- The digit of four of the bits, counted from the first ones. -/
def digit (u : Uuid) (i : Nat) : Char :=
  Nat.digitChar ((u.bits.toNat >>> (4 * (31 - i))) % 16)

def group (u : Uuid) (start length : Nat) : List Char :=
  (List.range' start length).map u.digit

def print (u : Uuid) : List Char :=
  u.group 0 8 ++ '-' :: u.group 8 4 ++ '-' :: u.group 12 4 ++ '-' :: u.group 16 4 ++
    '-' :: u.group 20 12

def text (u : Uuid) : String := String.ofList u.print

end Uuid

end HostAgent
