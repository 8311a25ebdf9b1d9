/-!
# Scalars

The numbers the methods compute with.  Every algorithm of the library is written
once, over this class: binary64 runs, and any other model of the same operations
(the reals, say) carries the theory.  Comparisons are decidable but need not be
total, because a NaN is unrelated to every number, itself included.
-/

namespace Descent

/-- A number type with arithmetic, decidable comparisons, square root and magnitude. -/
class Scalar (α : Type) extends
    Zero α, One α, Neg α, Add α, Sub α, Mul α, Div α, LT α, LE α, OfScientific α where
  decLt : ∀ a b : α, Decidable (a < b)
  decLe : ∀ a b : α, Decidable (a ≤ b)
  sqrt : α → α
  abs : α → α
  /-- A power with a natural exponent, which need not be a product of roundings. -/
  power : α → Nat → α
  isFinite : α → Bool

namespace Scalar

variable {α : Type} [Scalar α]

instance (a b : α) : Decidable (a < b) := Scalar.decLt a b

instance (a b : α) : Decidable (a ≤ b) := Scalar.decLe a b

/-- The first number, unless the second is larger. -/
def larger (a b : α) : α := if a < b then b else a

def smaller (a b : α) : α := if b < a then b else a

/-- Neither above nor below zero; a NaN is not zero. -/
def isZero (a : α) : Bool := decide (a ≤ 0) && decide (0 ≤ a)

def isUnordered (a : α) : Bool := !decide (a ≤ a)

/-- The larger number, where an unordered one absorbs everything. -/
def supremum (a b : α) : α := if b ≤ a ∨ isUnordered a then a else b

theorem larger_of_lt {a b : α} (h : a < b) : larger a b = b := if_pos h

theorem larger_of_not_lt {a b : α} (h : ¬ a < b) : larger a b = a := if_neg h

theorem smaller_of_lt {a b : α} (h : b < a) : smaller a b = b := if_pos h

theorem smaller_of_not_lt {a b : α} (h : ¬ b < a) : smaller a b = a := if_neg h

end Scalar

instance : Scalar Float where
  zero := 0
  one := 1
  decLt := Float.decLt
  decLe := Float.decLe
  sqrt := Float.sqrt
  abs := Float.abs
  power a k := Float.pow a k.toFloat
  isFinite := Float.isFinite

end Descent
