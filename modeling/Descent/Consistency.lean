import Descent.Objective
import Descent.Difference
/-!
# Consistency of derivatives

Checks of what a caller supplies: a gradient against central differences, and a
Hessian against its transpose.
-/

namespace Descent

variable {m : Type → Type} [Monad m] {α : Type} [Scalar α] {n : Nat}

namespace Objective

/-- The distance of the supplied gradient from central differences, relative to the
latter's norm or one, whichever is larger. -/
def gradientError (f : Objective m α n) (x : Vector α n) (ε : α) : Attempt m α α := do
  let analytic ← f.gradient x
  Attempt.lift (Difference.checkStep ε)
  let numeric ← Difference.gradient f.value x ε
  pure (norm (analytic - numeric) / Scalar.larger 1 (norm numeric))

def defaultTolerance : α := 1e-4

def acceptsError (tolerance error : α) : Bool :=
  Scalar.isFinite error && decide (error ≤ tolerance)

def isConsistent (f : Objective m α n) (x : Vector α n) (tolerance : α) :
    Attempt m α Bool := do
  let error ← f.gradientError x Difference.gradientStep
  pure (acceptsError tolerance error)

def requireConsistent (f : Objective m α n) (x : Vector α n) (tolerance : α) :
    Attempt m α Unit := do
  let error ← f.gradientError x Difference.gradientStep
  if acceptsError tolerance error then pure ()
  else throw (.argument (.gradientDisagrees f.name error tolerance))

end Objective

namespace SquareMatrix

def symmetryTolerance : α := 1e-8

def magnitudes (A : SquareMatrix α n) : List α :=
  A.toList.flatMap fun row => row.toList.map Scalar.abs

def deviation (A : SquareMatrix α n) : SquareMatrix α n :=
  ofFn fun i j => (A.get i).get j - (A.get j).get i

/-- Whether the largest deviation from the transpose is finite and small beside the
largest entry; a matrix without entries has no largest one. -/
def isSymmetric (A : SquareMatrix α n) (tolerance : α) : Except (Error α) Bool :=
  match maxEntry? A.magnitudes, maxEntry? A.deviation.magnitudes with
  | some largest, some deviation =>
    .ok <| Scalar.isFinite deviation
      && decide (deviation ≤ tolerance * Scalar.larger 1 largest)
  | _, _ => .error .noEntries

def requireSymmetric (A : SquareMatrix α n) (tolerance : α) : Except (Error α) Unit := do
  if ← A.isSymmetric tolerance then pure ()
  else throw (.argument (.notSymmetric tolerance))

end SquareMatrix

end Descent
