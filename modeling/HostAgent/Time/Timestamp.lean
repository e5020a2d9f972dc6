import HostAgent.Time.Span

namespace HostAgent.Time

/-!
# Moments

A moment in universal time: a day of the proleptic calendar and a time of day to the nanosecond,
which may lie in the leap second at the end of a minute. Its text has the fewest groups of three
fraction digits, and the years of four digits no sign.
-/

def isLeapYear (y : Int) : Bool :=
  y % 4 = 0 ∧ (y % 100 ≠ 0 ∨ y % 400 = 0)

def daysIn (y : Int) (m : Nat) : Nat :=
  if m = 2 then (if isLeapYear y then 29 else 28)
  else if m = 4 ∨ m = 6 ∨ m = 9 ∨ m = 11 then 30
  else 31

/-- The first and the last year that dates may have. -/
def minYear : Int := -262143

def maxYear : Int := 262142

def IsDate (y : Int) (m d : Nat) : Prop :=
  minYear ≤ y ∧ y ≤ maxYear ∧ 1 ≤ m ∧ m ≤ 12 ∧ 1 ≤ d ∧ d ≤ daysIn y m

instance (y : Int) (m d : Nat) : Decidable (IsDate y m d) :=
  inferInstanceAs (Decidable (_ ∧ _))

structure Date where
  year : Int
  month : Nat
  day : Nat
  isDate : IsDate year month day
  deriving DecidableEq, Repr

namespace Date

def ofFields? (y : Int) (m d : Nat) : Option Date :=
  if h : IsDate y m d then some ⟨y, m, d, h⟩ else none

def next? (t : Date) : Option Date :=
  ((ofFields? t.year t.month (t.day + 1)).or (ofFields? t.year (t.month + 1) 1)).or
    (ofFields? (t.year + 1) 1 1)

def previous? (t : Date) : Option Date :=
  ((ofFields? t.year t.month (t.day - 1)).or
      (ofFields? t.year (t.month - 1) (daysIn t.year (t.month - 1)))).or
    (ofFields? (t.year - 1) 12 31)

end Date

/-- A time of day; from the nanosecond `10 ^ 9` on it lies in a leap second. -/
def IsTime (hour minute second nano : Nat) : Prop :=
  hour < 24 ∧ minute < 60 ∧ second < 60 ∧
    (nano < 1000000000 ∨ second = 59 ∧ nano < 2000000000)

instance (h m s n : Nat) : Decidable (IsTime h m s n) :=
  inferInstanceAs (Decidable (_ ∧ _))

structure Timestamp where
  date : Date
  hour : Nat
  minute : Nat
  second : Nat
  nano : Nat
  isTime : IsTime hour minute second nano
  deriving DecidableEq, Repr

namespace Timestamp

def ofFields? (date : Date) (h m s n : Nat) : Option Timestamp :=
  if w : IsTime h m s n then some ⟨date, h, m, s, n, w⟩ else none

/-- The moment a number of minutes, less than a day, later or earlier. -/
def addMinutes? (t : Timestamp) (minutes : Int) : Option Timestamp :=
  let total : Int := (t.hour * 60 + t.minute : Nat) + minutes
  let date := if total < 0 then t.date.previous?
    else if 1440 ≤ total then t.date.next?
    else some t.date
  let inDay := (total % 1440).toNat
  date.bind fun d => ofFields? d (inDay / 60) (inDay % 60) t.second t.nano

def yearText (y : Int) : List Char :=
  if 0 ≤ y ∧ y ≤ 9999 then Span.padded 4 y.toNat
  else (if y < 0 then '-' else '+') :: Span.padded 4 y.natAbs

/-- The digits of a fraction of a second, in as few groups of three as it needs. -/
def fractionText (n : Nat) : List Char :=
  if n = 0 then []
  else if n % 1000000 = 0 then '.' :: Span.padded 3 (n / 1000000)
  else if n % 1000 = 0 then '.' :: Span.padded 6 (n / 1000)
  else '.' :: Span.padded 9 n

def printTime (t : Timestamp) : List Char :=
  let leap := 1000000000 ≤ t.nano
  let second := if leap then t.second + 1 else t.second
  let nano := if leap then t.nano - 1000000000 else t.nano
  yearText t.date.year ++ '-' :: Span.padded 2 t.date.month ++ '-' :: Span.padded 2 t.date.day ++
    'T' :: Span.padded 2 t.hour ++ ':' :: Span.padded 2 t.minute ++ ':' :: Span.padded 2 second ++
    fractionText nano

def print (t : Timestamp) : List Char := t.printTime ++ ['Z']

def text (t : Timestamp) : String := String.ofList t.print

/-- The text that gives the distance to universal time, which is none, in hours and minutes. -/
def textWithOffset (t : Timestamp) : String := String.ofList t.printTime ++ "+00:00"

end Timestamp

end HostAgent.Time
