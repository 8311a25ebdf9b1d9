import Descent.Proofs.Transparency
import Descent.Proofs.Subproblem.Dogleg
import Descent.Proofs.Difference
import Descent.Objective.Quadratic
/-!
# Quadratic functions in exact arithmetic

If its matrix is symmetric, a quadratic function is its own quadratic model at every point: it
falls by what the model predicts, and its gradient changes by the product of the matrix with the
step.  Central differences of its values are then its gradient, so that no check of debug mode
refuses it.
-/

namespace Descent

namespace Quadratic

open Subproblem

variable {n : Nat} (q : Quadratic ℝ n)

theorem gradient_add (x s : Vector ℝ n) :
    q.gradient (x + s) = q.gradient x + q.matrix.mulVec s := by
  unfold gradient
  rw [SquareMatrix.mulVec_add]
  abel

variable {q}

/-- What the model predicts is what happens. -/
theorem value_sub_value_add (symmetric : q.matrix.transpose = q.matrix) (x s : Vector ℝ n) :
    q.value x - q.value (x + s) = modelReduction (q.gradient x) q.matrix s := by
  have mixed : dot x (q.matrix.mulVec s) = dot s (q.matrix.mulVec x) :=
    SquareMatrix.dot_mulVec_comm symmetric x s
  simp only [value, gradient, modelReduction, hmul_eq_smul, SquareMatrix.mulVec_add, dot_smul_left,
    dot_add_left, dot_add_right, dot_sub_left, mixed, dot_comm (q.matrix.mulVec x) s]
  norm_num
  ring

section Symmetrized

variable (q)

/-- The function with the symmetric part of the matrix. -/
noncomputable def symmetrized : Quadratic ℝ n := { q with matrix := q.matrix.symmetricPart }

theorem symmetrized_eq_self (symmetric : q.matrix.transpose = q.matrix) : q.symmetrized = q := by
  rw [symmetrized, SquareMatrix.symmetricPart_eq_self symmetric]

@[simp] theorem value_symmetrized (x : Vector ℝ n) : q.symmetrized.value x = q.value x := by
  simp only [value, symmetrized, hmul_eq_smul, dot_smul_left,
    SquareMatrix.dot_mulVec_symmetricPart]

theorem value_add_sub_value_sub (x s : Vector ℝ n) :
    q.value (x + s) - q.value (x - s) = 2 * dot (q.symmetrized.gradient x) s := by
  have symmetric : q.symmetrized.matrix.transpose = q.symmetrized.matrix :=
    SquareMatrix.symmetricPart_symmetric q.matrix
  have reflected (A : SquareMatrix ℝ n) : dot (-s) (A.mulVec (-s)) = dot s (A.mulVec s) := by
    rw [SquareMatrix.mulVec_neg, dot_neg_right, dot_comm, dot_neg_right, neg_neg, dot_comm]
  have above := value_sub_value_add symmetric x s
  have below := value_sub_value_add symmetric x (-s)
  simp only [value_symmetrized] at above below
  rw [modelReduction] at above
  rw [← sub_eq_add_neg, modelReduction, dot_neg_right, reflected] at below
  linarith

end Symmetrized

section Differences

open Difference

variable (q)

/-- Each difference quotient is the derivative, which only knows of the symmetric part. -/
theorem gradient_differences (x : Vector ℝ n) :
    Difference.gradient (m := Attempt Id ℝ) (fun y => pure (q.value y)) x gradientStep =
      pure (q.symmetrized.gradient x) := by
  have quotient_eq (i : Fin n) :
      (q.value (shift x i (stepAt gradientStep (x.get i))) -
        q.value (shiftBack x i (stepAt gradientStep (x.get i)))) /
          (2.0 * stepAt gradientStep (x.get i)) = (q.symmetrized.gradient x).get i := by
    have step_pos : 0 < stepAt gradientStep (x.get i) := stepAt_pos gradientStep_pos _
    rw [shift_eq, shiftBack_eq, value_add_sub_value_sub, dot_displacement,
      div_eq_iff (by positivity)]
    norm_num
    ring
  unfold Difference.gradient
  simp only [pure_bind, quotient_eq, Vector.ofFnM_pure]
  congr 1
  ext i hi
  simp

/-- The error that debug mode finds in the gradient. -/
theorem gradientError_objective (x : Vector ℝ n) :
    ((q.objective (m := Id)).gradientError x gradientStep).run.run =
      .ok (‖q.gradient x - q.symmetrized.gradient x‖ / max 1 ‖q.symmetrized.gradient x‖) := by
  unfold Objective.gradientError objective Objective.ofFunctions
  simp only [checkStep, if_neg (not_le.mpr gradientStep_pos), gradient_differences, pure_bind,
    norm_eq_norm, Scalar.larger_real]
  rfl

/-- The gradient passes the check of debug mode where it is near the derivative. -/
theorem requireConsistent_objective_iff (x : Vector ℝ n) :
    Id.run ((q.objective (m := Id)).requireConsistent x Objective.defaultTolerance).run = .ok () ↔
      ‖q.gradient x - q.symmetrized.gradient x‖ ≤
        Objective.defaultTolerance * max 1 ‖q.symmetrized.gradient x‖ := by
  have positive : 0 < max 1 ‖q.symmetrized.gradient x‖ := zero_lt_one.trans_le (le_max_left _ _)
  have checked := Objective.requireConsistent_eq (q.gradientError_objective x)
    Objective.defaultTolerance
  rw [← div_le_iff₀ positive]
  refine (Eq.congr_left checked).trans ?_
  simp [Objective.acceptsError]

variable {q}

theorem requireConsistent_objective (symmetric : q.matrix.transpose = q.matrix) (x : Vector ℝ n) :
    Id.run ((q.objective (m := Id)).requireConsistent x Objective.defaultTolerance).run =
      .ok () := by
  rw [requireConsistent_objective_iff, symmetrized_eq_self q symmetric, sub_self, norm_zero]
  have nonneg : 0 ≤ (Objective.defaultTolerance : ℝ) := by norm_num [Objective.defaultTolerance]
  positivity

end Differences

section Minimizer

variable (definite : ∀ v : Vector ℝ n, v ≠ 0 → 0 < dot v (q.matrix.mulVec v))

include definite

theorem mulVec_injective {x y : Vector ℝ n}
    (same : q.matrix.mulVec x = q.matrix.mulVec y) : x = y := by
  have isPosDef := SquareMatrix.isPosDef_iff.mpr definite
  have vanishes : q.matrix.mulVec (x - y) = 0 := by
    rw [sub_eq_add_neg, SquareMatrix.mulVec_add, SquareMatrix.mulVec_neg, same, add_neg_cancel]
  exact sub_eq_zero.mp (SquareMatrix.regular_of_isPosDef isPosDef vanishes)

/-- The minimizer is the point where the gradient vanishes. -/
theorem minimizer_eq_of_gradient {x : Vector ℝ n} (stationary : q.gradient x = 0) :
    q.minimizer = .ok x := by
  have isPosDef := SquareMatrix.isPosDef_iff.mpr definite
  obtain ⟨y, found, solves⟩ := SquareMatrix.exists_solve?
    (fun _ => SquareMatrix.regular_of_isPosDef isPosDef) q.vector
  have same : y = x := mulVec_injective definite (solves.trans (sub_eq_zero.mp stationary).symm)
  rw [minimizer, SquareMatrix.solve, found, same]

end Minimizer

end Quadratic

/-! ## Isotropic functions -/

namespace SquareMatrix

variable {n : Nat}

noncomputable def scalar (a : ℝ) : SquareMatrix ℝ n := ofFn fun i j => if i = j then a else 0

@[simp] theorem mulVec_scalar (a : ℝ) (x : Vector ℝ n) : (scalar a).mulVec x = a • x := by
  ext i hi
  rw [getElem_mulVec, dot_eq_sum, Finset.sum_eq_single ⟨i, hi⟩]
  · simp [scalar]
  · intro j _ other
    simp [scalar, other.symm]
  · simp

theorem transpose_scalar (a : ℝ) : (scalar a : SquareMatrix ℝ n).transpose = scalar a := by
  ext i hi j hj
  simp [scalar, eq_comm]

theorem eq_scalar (A : SquareMatrix ℝ 1) : A = scalar (first (first A)) := by
  ext i hi j hj
  obtain rfl : i = 0 := by omega
  obtain rfl : j = 0 := by omega
  simp [scalar, first_eq_getElem]

end SquareMatrix

namespace Quadratic

noncomputable def square : Quadratic ℝ 1 := ⟨.ofFn fun _ _ => 1 + 1, 0, 0⟩

theorem square_matrix : square.matrix = .scalar 2 := by
  rw [square.matrix.eq_scalar]
  exact congrArg SquareMatrix.scalar one_add_one_eq_two

theorem square_gradient (x : Vector ℝ 1) : square.gradient x = (2 : ℝ) • x := by
  rw [gradient, square_matrix, SquareMatrix.mulVec_scalar]
  exact sub_zero _

end Quadratic

end Descent
