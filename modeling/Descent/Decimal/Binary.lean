/-!
# Binary64 numbers, exactly

What a binary64 number stands for: a sign, and a whole number times a power of two.
-/

namespace Descent.Decimal

inductive Binary where
  | nan
  | infinite (isNegative : Bool)
  /-- The magnitude is `significand * 2 ^ exponent`. -/
  | finite (isNegative : Bool) (significand : Nat) (exponent : Int)

namespace Binary

def fractionBits : Nat := 52

def leastExponent : Int := -1074

def ofFloat (v : Float) : Binary :=
  let bits := v.toBits.toNat
  let isNegative := decide (Nat.pow 2 63 ≤ bits)
  let biased := bits / Nat.pow 2 fractionBits % Nat.pow 2 11
  let fraction := bits % Nat.pow 2 fractionBits
  if biased = 2047 then if fraction = 0 then infinite isNegative else nan
  else if biased = 0 then finite isNegative fraction leastExponent
  else finite isNegative (Nat.pow 2 fractionBits + fraction) (leastExponent + (biased - 1 : Nat))

end Binary

structure Ratio where
  numerator : Nat
  denominator : Nat

namespace Ratio

def ofPower (m b : Nat) (e : Int) : Ratio :=
  match e with
  | .ofNat k => ⟨m * Nat.pow b k, 1⟩
  | .negSucc k => ⟨m, Nat.pow b (k + 1)⟩

def scale (r : Ratio) (e : Int) : Ratio :=
  match e with
  | .ofNat k => ⟨r.numerator * Nat.pow 10 k, r.denominator⟩
  | .negSucc k => ⟨r.numerator, r.denominator * Nat.pow 10 (k + 1)⟩

def floor (r : Ratio) : Nat := r.numerator / r.denominator

/-- The nearest whole number; halfway, the even one. -/
def round (r : Ratio) : Nat :=
  let quotient := r.numerator / r.denominator
  let twice := 2 * (r.numerator % r.denominator)
  if twice < r.denominator ∨ (twice = r.denominator ∧ quotient % 2 = 0) then quotient
  else quotient + 1

def le (r s : Ratio) : Bool := r.numerator * s.denominator ≤ s.numerator * r.denominator

def lt (r s : Ratio) : Bool := r.numerator * s.denominator < s.numerator * r.denominator

/-- The exponent of the leading decimal digit of a positive number: an estimate from the
binary lengths, then the largest of its neighbours that fits. -/
def decade (r : Ratio) : Int :=
  let estimate := ((r.numerator.log2 : Int) - r.denominator.log2) * 30103 / 100000
  let fits (k : Int) : Bool := (ofPower 1 10 k).le r
  if fits (estimate + 1) then estimate + 1
  else if fits estimate then estimate
  else estimate - 1

end Ratio

def natOfFloat? (v : Float) : Option Nat :=
  match Binary.ofFloat v with
  | .finite isNegative significand exponent =>
    let r := Ratio.ofPower significand 2 exponent
    if r.numerator % r.denominator = 0 ∧ (isNegative = false ∨ significand = 0) then
      some r.floor
    else none
  | _ => none

end Descent.Decimal
