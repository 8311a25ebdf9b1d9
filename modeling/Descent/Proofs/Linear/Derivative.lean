import Descent.Proofs.Linear.Definite
/-!
# Derivatives of functions of a vector

Coordinates and matrices are continuous linear maps, so that derivatives are computed along the
terms of a function.  A gradient is read off the inner products with it; a Hessian is the
derivative of the gradient.
-/

namespace Descent

open Topology

variable {n : Nat}

noncomputable def coordinate (i : Fin n) : Vector ℝ n →L[ℝ] ℝ :=
  LinearMap.toContinuousLinearMap ((LinearMap.proj i).comp (coordinatesEquiv n).toLinearMap)

@[simp] theorem coordinate_apply (i : Fin n) (v : Vector ℝ n) : coordinate i v = v.get i := rfl

theorem hasFDerivAt_coordinate (i : Fin n) (x : Vector ℝ n) :
    HasFDerivAt (fun y : Vector ℝ n => y.get i) (coordinate i) x :=
  (coordinate i).hasFDerivAt

theorem hasGradientAt_of_dot {f : Vector ℝ n → ℝ} {f' : Vector ℝ n →L[ℝ] ℝ} {x g : Vector ℝ n}
    (derivative : HasFDerivAt f f' x) (along : ∀ v, f' v = dot g v) : HasGradientAt f g x :=
  derivative.congr_fderiv (ContinuousLinearMap.ext along)

noncomputable def SquareMatrix.toLinear (A : SquareMatrix ℝ n) : Vector ℝ n →L[ℝ] Vector ℝ n :=
  LinearMap.toContinuousLinearMap
    { toFun := A.mulVec, map_add' := A.mulVec_add, map_smul' := A.mulVec_smul }

@[simp] theorem SquareMatrix.toLinear_apply (A : SquareMatrix ℝ n) (v : Vector ℝ n) :
    A.toLinear v = A.mulVec v := rfl

theorem SquareMatrix.hasFDerivAt_mulVec (A : SquareMatrix ℝ n) (x : Vector ℝ n) :
    HasFDerivAt A.mulVec A.toLinear x :=
  A.toLinear.hasFDerivAt

/-- A matrix is the second derivative of a function at a point: near the point the function has a
gradient, whose derivative there is the matrix. -/
def HasHessianAt (f : Vector ℝ n → ℝ) (H : SquareMatrix ℝ n) (x : Vector ℝ n) : Prop :=
  ∃ g : Vector ℝ n → Vector ℝ n,
    (∀ᶠ y in 𝓝 x, HasGradientAt f (g y) y) ∧ HasFDerivAt g H.toLinear x

end Descent
