import Descent.Subproblem
import Descent.Tensor.Linear
/-!
# The subproblem for arrays of any shape

Gradient, Hessian and step given as tensors.  If their shapes fit, these are the
routines on vectors and matrices; a misfit is an error as soon as a product needs it.
-/

namespace Descent.Subproblem

variable {α : Type} [Scalar α]

structure Model (α : Type) where
  dimension : Nat
  gradient : Vector α dimension
  hessian : SquareMatrix α dimension

def Model.ofTensors? (gradient hessian : Tensor α) : Option (Model α) :=
  match hessian.toSquare? with
  | some ⟨n, H⟩ => (gradient.toVector? n).map fun g => ⟨n, g, H⟩
  | none => none

namespace Shapes

def modelReduction (gradient hessian step : Tensor α) : Except (Error α) α :=
  match Model.ofTensors? gradient hessian with
  | some ⟨n, g, H⟩ =>
    match step.toVector? n with
    | some s => .ok (Subproblem.modelReduction g H s)
    | none => .error .shapeMismatch
  | none => .error .shapeMismatch

/-- A zero gradient has itself for its Cauchy point, whatever the Hessian. -/
def cauchyPoint (gradient hessian : Tensor α) (radius : α) : Except (Error α) (Tensor α) :=
  match Model.ofTensors? gradient hessian with
  | some ⟨_, g, H⟩ => Tensor.ofVector <$> Subproblem.cauchyPoint g H radius
  | none =>
    if Scalar.isZero (norm gradient.entries) then .ok (gradient.map fun _ => 0)
    else .error .shapeMismatch

def doglegStep (gradient hessian : Tensor α) (radius : α) : Except (Error α) (Tensor α) :=
  match Model.ofTensors? gradient hessian with
  | some ⟨_, g, H⟩ => Tensor.ofVector <$> Subproblem.doglegStep g H radius
  | none => do
    if ← hessian.isPosDef then throw .shapeMismatch
    cauchyPoint gradient hessian radius

/-- The intersection with the boundary; a zero direction needs no position. -/
def boundaryIntersection (p d : Tensor α) (radius : α) : Except (Error α) α :=
  match d.toFlat? with
  | none => .error .shapeMismatch
  | some entries =>
    match p.toVector? entries.size with
    | some p => Subproblem.boundaryIntersection p entries.toVector radius
    | none => if dot d.entries d.entries ≤ 0 then .ok 0 else .error .shapeMismatch

def solve (method : String) (gradient hessian : Tensor α) (radius : α) :
    Except (Error α) ((n : Nat) × TrialStep α n) := do
  checkRadius radius
  match SearchMethod.ofName? method with
  | none => throw (.argument (.searchMethod method))
  | some method =>
    match Model.ofTensors? gradient hessian with
    | some ⟨n, g, H⟩ => return ⟨n, ← Subproblem.solve method g H radius⟩
    | none => throw .shapeMismatch

end Shapes

end Descent.Subproblem
