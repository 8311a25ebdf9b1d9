import Descent.Decimal.Binary
/-!
# Decimal digits

A positive number as whole decimal digits with the exponent of the first one: either a
given number of them, correctly rounded, or as few as read back to the same binary64
number.
-/

namespace Descent.Decimal

/-- The number `significand * 10 ^ (exponent - count + 1)`, whose `count` digits are those
of `significand`, where the first one is not zero. -/
structure Digits where
  significand : Nat
  count : Nat
  exponent : Int

namespace Digits

def rounded (r : Ratio) (count : Nat) : Digits :=
  let exponent := r.decade
  let significand := (r.scale (count - 1 - exponent)).round
  if significand = Nat.pow 10 count then ⟨Nat.pow 10 (count - 1), count, exponent + 1⟩
  else ⟨significand, count, exponent⟩

/-- The numbers that round to a given binary64 number, as an interval; its ends belong to
it if the significand is even. -/
structure Interval where
  low : Ratio
  high : Ratio
  isClosed : Bool

namespace Interval

/-- The interval around `significand * 2 ^ exponent`.  Below a power of two the neighbours
are half as far away as above it. -/
def around (significand : Nat) (exponent : Int) : Interval :=
  let isPower :=
    decide (significand = Nat.pow 2 Binary.fractionBits ∧ Binary.leastExponent < exponent)
  let below := if isPower then 1 else 2
  { low := Ratio.ofPower (4 * significand - below) 2 (exponent - 2)
    high := Ratio.ofPower (4 * significand + 2) 2 (exponent - 2)
    isClosed := significand % 2 = 0 }

def contains (i : Interval) (r : Ratio) : Bool :=
  if i.isClosed then i.low.le r && r.le i.high else i.low.lt r && r.lt i.high

end Interval

/-- Of the two numbers with `count` digits beside `r`, the one in the interval that is
nearer, the even one of equals. -/
def candidate? (r : Ratio) (interval : Interval) (exponent : Int) (count : Nat) : Option Nat :=
  let scaled := r.scale (count - 1 - exponent)
  let inside (k : Nat) : Bool :=
    interval.contains ((⟨k, 1⟩ : Ratio).scale (exponent - (count - 1)))
  let nearest := scaled.round
  let other := if nearest = scaled.floor then nearest + 1 else scaled.floor
  if inside nearest then some nearest else if inside other then some other else none

def search (r : Ratio) (interval : Interval) (exponent : Int) : (fuel : Nat) → Nat → Digits
  | 0, count => rounded r count
  | fuel + 1, count =>
    match candidate? r interval exponent count with
    | some k =>
      if k = Nat.pow 10 count then ⟨Nat.pow 10 (count - 1), count, exponent + 1⟩
      else ⟨k, count, exponent⟩
    | none => search r interval exponent fuel (count + 1)

def enough : Nat := 17

def shortest (significand : Nat) (exponent : Int) : Digits :=
  let r := Ratio.ofPower significand 2 exponent
  search r (Interval.around significand exponent) r.decade (enough - 1) 1

def trim (d : Digits) : Digits :=
  let rec go : Nat → Nat → Nat × Nat
    | 0, k => (k, 0)
    | fuel + 1, k =>
      if k % 10 = 0 then let (k, zeros) := go fuel (k / 10); (k, zeros + 1) else (k, 0)
  let (significand, zeros) := go (d.count - 1) d.significand
  ⟨significand, d.count - zeros, d.exponent⟩

def chars (d : Digits) : List Char :=
  let digits := Nat.toDigits 10 d.significand
  List.replicate (d.count - digits.length) '0' ++ digits

end Digits

end Descent.Decimal
