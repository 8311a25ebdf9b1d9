import Descent.Objective
import Descent.Linear.Solve
import Descent.Tensor
/-!
# Quadratic functions

`f x = ½ xᵀ A x - bᵀ x + c` with a symmetric `A`, its exact derivatives and, where the
matrix is regular, its minimizer.
-/

namespace Descent

structure Quadratic (α : Type) (n : Nat) where
  matrix : SquareMatrix α n
  vector : Vector α n
  constant : α

namespace Quadratic

variable {α : Type} [Scalar α] {n : Nat}

/-- Two entries count as equal within an absolute and a relative tolerance; infinities
only if they are the same. -/
def isClose (a b : α) : Bool :=
  if Scalar.isFinite a && Scalar.isFinite b then
    decide (Scalar.abs (a - b) ≤ 1e-8 + 1e-5 * Scalar.abs b)
  else decide (a ≤ b) && decide (b ≤ a)

def isSymmetric (A : SquareMatrix α n) : Bool :=
  (List.finRange n).all fun i =>
    (List.finRange n).all fun j => isClose ((A.get i).get j) ((A.get j).get i)

def value (q : Quadratic α n) (x : Vector α n) : α :=
  dot ((0.5 : α) * x) (q.matrix.mulVec x) - dot q.vector x + q.constant

def gradient (q : Quadratic α n) (x : Vector α n) : Vector α n := q.matrix.mulVec x - q.vector

def name : String := "QuadraticFunction"

def objective {m : Type → Type} [Monad m] (q : Quadratic α n) : Objective m α n :=
  .ofFunctions name q.value q.gradient fun _ => q.matrix

def minimizer (q : Quadratic α n) : Except (Error α) (Vector α n) :=
  SquareMatrix.solve q.matrix q.vector

/-- Accepts a square matrix and a vector of its size, if the matrix is symmetric. -/
def ofTensors (A b : Tensor α) (c : α) : Except (Error α) ((n : Nat) × Quadratic α n) :=
  match A.toSquare? with
  | none => .error (.setting (.matrixNotSquare A.shape))
  | some ⟨n, matrix⟩ =>
    match b.toVector? n with
    | none => .error (.setting (.vectorShape n b.shape))
    | some vector =>
      if isSymmetric matrix then .ok ⟨n, matrix, vector, c⟩
      else .error (.setting .matrixNotSymmetric)

end Quadratic

end Descent
