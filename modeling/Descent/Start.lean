import Descent.Tensor
import Descent.Status
import Descent.Decimal.Binary
/-!
# Starting a run

The checks that stand before every run: the function's dimension, the starting
iterate, the iteration budget; and the convergence test that both optimizers share.
-/

namespace Descent

namespace Dimension

def isCount (n : Nat) : Dimension → Bool
  | whole k => k = n
  | real d => d == Float.ofNat n

def positive {α : Type} (d : Dimension) : Except (Error α) Nat :=
  match d with
  | whole n => if n < 1 then .error (.setting (.notPositiveInteger d)) else .ok n.toNat
  | real v =>
    if v.isFinite then
      match Decimal.natOfFloat? v with
      | some (n + 1) => .ok (n + 1)
      | _ => .error (.setting (.notPositiveInteger d))
    else .error .overflow

end Dimension

variable {α : Type} [Scalar α]

/-- A starting iterate has one axis, the function's dimension, and finite entries only. -/
def checkIterate (dimension : Dimension) (start : Tensor α) : Except (Error α) (Array α) :=
  match start.toFlat? with
  | none => .error (.setting (.iterateNotVector start.shape))
  | some entries =>
    if !dimension.isCount entries.size then
      .error (.setting (.iterateSize entries.size dimension))
    else if entries.all Scalar.isFinite then .ok entries
    else .error (.setting .iterateNotFinite)

def checkStart {n : Nat} (dimension : Dimension) (start : Tensor α) :
    Except (Error α) (Vector α n) := do
  let entries ← checkIterate dimension start
  match Tensor.vector? n entries with
  | some x => pure x
  | none => throw (.setting (.iterateSize entries.size dimension))

/-- The number of iterations allowed: a positive budget, or the cap if there is none. -/
def resolveBudget (budget : Option Int) (cap : Int) : Except (Error α) Int :=
  match budget with
  | none => .ok cap
  | some k => if k ≤ 0 then .error (.setting .iterationBudget) else .ok k

def checkRequest {n : Nat} (dimension : Dimension) (cap : Int) (budget : Option Int)
    (start : Tensor α) : Except (Error α) (Vector α n × Nat) := do
  let x ← checkStart dimension start
  let limit ← resolveBudget budget cap
  pure (x, limit.toNat)

def leastTolerance : α := 1e-12

def isConverged (gradientNorm tolerance : α) : Bool :=
  decide (gradientNorm ≤ Scalar.larger tolerance leastTolerance)

def defaultGradientTolerance : α := 1e-6

def defaultIterationCap : Int := 100000

end Descent
