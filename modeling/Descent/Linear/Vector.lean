import Descent.Scalar
import Descent.Error
/-!
# Vectors and checked arithmetic

Inner product and Euclidean norm on `Vector α n`, without scaling, and the three
operations on numbers that can fail: a quotient, a square and a cube.
-/

namespace Descent

variable {α : Type} [Scalar α] {n : Nat}

/-- The inner product, summed from the first coordinate on. -/
def dot (x y : Vector α n) : α := Fin.foldl n (fun sum i => sum + x[i] * y[i]) 0

/-- The Euclidean norm, as the root of the sum of squares. -/
def norm (x : Vector α n) : α := Scalar.sqrt (dot x x)

def prepend {α : Type} {n : Nat} (head : α) (tail : Vector α n) : Vector α (n + 1) :=
  Vector.ofFn fun i => if h : i = 0 then head else tail[i.pred h]

def first {α : Type} {n : Nat} (x : Vector α (n + 1)) : α := x[0]

def dropFirst {α : Type} {n : Nat} (x : Vector α (n + 1)) : Vector α n :=
  Vector.ofFn fun i => x[i.succ]

@[simp] theorem first_eq_getElem {α : Type} {n : Nat} (x : Vector α (n + 1)) :
    first x = x[0] := rfl

@[simp] theorem getElem_dropFirst {α : Type} {n : Nat} (x : Vector α (n + 1)) (i : Nat)
    (h : i < n) : (dropFirst x)[i] = x[i + 1] := by
  simp [dropFirst]

@[simp] theorem prepend_zero {α : Type} {n : Nat} (head : α) (tail : Vector α n) :
    (prepend head tail)[0] = head := by
  simp [prepend]

@[simp] theorem prepend_succ {α : Type} {n : Nat} (head : α) (tail : Vector α n) (i : Nat)
    (h : i + 1 < n + 1) : (prepend head tail)[i + 1] = tail[i] := by
  simp [prepend]

/-- The largest entry, where an unordered entry absorbs the others. -/
def maxEntry? : List α → Option α
  | [] => none
  | a :: rest => some (rest.foldl Scalar.supremum a)

def minEntry? (entries : List α) : Option α :=
  match entries with
  | [] => none
  | a :: rest => some (rest.foldl (fun m b => if m ≤ b ∨ Scalar.isUnordered m then m else b) a)

def quotient (a b : α) : Except (Error α) α :=
  if Scalar.isZero b then .error .divisionByZero else .ok (a / b)

/-- Passes a power of `base` on, unless a finite base left the finite range. -/
def checkPower (base power : α) : Except (Error α) α :=
  if Scalar.isFinite base && !Scalar.isFinite power then .error .overflow else .ok power

def square (a : α) : Except (Error α) α := checkPower a (Scalar.power a 2)

def cube (a : α) : Except (Error α) α := checkPower a (Scalar.power a 3)

theorem quotient_of_ne {a b : α} (h : Scalar.isZero b = false) :
    quotient a b = .ok (a / b) := by
  simp [quotient, h]

theorem quotient_zero {a b : α} (h : Scalar.isZero b = true) :
    quotient a b = .error .divisionByZero := by
  simp [quotient, h]

end Descent
