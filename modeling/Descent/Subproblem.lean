import Descent.Linear.Definite
import Descent.Linear.Solve
/-!
# The trust-region subproblem

Approximate minimizers of the model `m p = g · p + ½ p · B p` over the ball of a given
radius: the Cauchy point, on the ray of steepest descent, and the dogleg step, on the
path that bends from there to the Newton step.
-/

namespace Descent

inductive SearchMethod where
  | cauchy
  | dogleg
  deriving DecidableEq

namespace SearchMethod

def name : SearchMethod → String
  | cauchy => "cauchy"
  | dogleg => "dogleg"

def all : List SearchMethod := [cauchy, dogleg]

def ofName? (name : String) : Option SearchMethod := all.find? (·.name = name)

end SearchMethod

/-- A candidate step, the decrease that the model predicts for it, and whether it
reaches the boundary of the ball. -/
structure TrialStep (α : Type) (n : Nat) where
  step : Vector α n
  predictedReduction : α
  onBoundary : Bool

namespace Subproblem

variable {α : Type} [Scalar α] {n : Nat}

def modelReduction (gradient : Vector α n) (hessian : SquareMatrix α n) (step : Vector α n) : α :=
  -(dot gradient step + 0.5 * dot step (hessian.mulVec step))

def curvature (gradient : Vector α n) (hessian : SquareMatrix α n) : α :=
  dot gradient (hessian.mulVec gradient)

/-- How much of the way to the boundary the minimizer on the ray of steepest descent is;
without positive curvature it is all of it. -/
def cauchyFraction (gradientNorm curvature radius : α) : Except (Error α) α :=
  if curvature ≤ 0 then .ok 1
  else do
    let cubed ← cube gradientNorm
    let fraction ← quotient cubed (radius * curvature)
    pure (Scalar.smaller fraction 1)

def cauchyPoint (gradient : Vector α n) (hessian : SquareMatrix α n) (radius : α) :
    Except (Error α) (Vector α n) :=
  let gradientNorm := norm gradient
  if Scalar.isZero gradientNorm then .ok (Vector.replicate n 0)
  else do
    let fraction ← cauchyFraction gradientNorm (curvature gradient hessian) radius
    let factor ← quotient (fraction * radius) gradientNorm
    pure (-factor * gradient)

/-- The largest `t ≥ 0` for which `p + t d` has the given norm, where `p` lies in the ball;
zero if `d` is. -/
def boundaryIntersection (p d : Vector α n) (radius : α) : Except (Error α) α := do
  let a := dot d d
  if a ≤ 0 then return 0
  let b := 2.0 * dot p d
  let c := dot p p - (← square radius)
  let discriminant := Scalar.larger (b * b - 4.0 * a * c) 0
  return (-b + Scalar.sqrt discriminant) / (2.0 * a)

def bentStep (gradient newton : Vector α n) (hessian : SquareMatrix α n) (radius : α) :
    Except (Error α) (Vector α n) := do
  let factor ← quotient (dot gradient gradient) (curvature gradient hessian)
  let corner := -factor * gradient
  let cornerNorm := norm corner
  if radius ≤ cornerNorm then
    return (← quotient radius cornerNorm) * corner
  let leg := newton - corner
  let fraction ← boundaryIntersection corner leg radius
  return corner + fraction * leg

/-- The last point of the dogleg path within the ball; the Cauchy point where the model is
not convex. -/
def doglegStep (gradient : Vector α n) (hessian : SquareMatrix α n) (radius : α) :
    Except (Error α) (Vector α n) :=
  if hessian.isPosDef then do
    let newton := -(← hessian.ridgeSolve gradient SquareMatrix.defaultRidge)
    if norm newton ≤ radius then return newton
    bentStep gradient newton hessian radius
  else cauchyPoint gradient hessian radius

def stepOf (method : SearchMethod) (gradient : Vector α n) (hessian : SquareMatrix α n)
    (radius : α) : Except (Error α) (Vector α n) :=
  match method with
  | .cauchy => cauchyPoint gradient hessian radius
  | .dogleg => doglegStep gradient hessian radius

/-- A step this close to the radius, relatively, counts as on the boundary. -/
def boundarySlack : α := 1e-8

def assess (gradient : Vector α n) (hessian : SquareMatrix α n) (radius : α)
    (step : Vector α n) : TrialStep α n where
  step := step
  predictedReduction := modelReduction gradient hessian step
  onBoundary := decide ((1.0 - boundarySlack) * radius ≤ norm step)

def checkRadius (radius : α) : Except (Error α) Unit :=
  if radius ≤ 0 then .error (.argument .radius) else .ok ()

def solve (method : SearchMethod) (gradient : Vector α n) (hessian : SquareMatrix α n)
    (radius : α) : Except (Error α) (TrialStep α n) := do
  checkRadius radius
  let step ← stepOf method gradient hessian radius
  pure (assess gradient hessian radius step)

end Subproblem

end Descent
