import Descent.Proofs.Quadratic
import Descent.Proofs.Objective.Gradient
import Descent.Proofs.Linear.Tensor
/-!
# Quadratic functions whose matrix is not symmetric

A matrix is accepted if its entries are close to those across the diagonal.  The gradient of the
function is then the derivative up to the deviation of the matrix from its transpose, which grows
with the distance from the origin and may come to more than debug mode lets pass.
-/

namespace Descent

variable {n : Nat}

/-! ## Deviations from the transpose -/

theorem norm_le_of_abs_le {v : Vector ℝ n} {κ : ℝ} (nonneg : 0 ≤ κ)
    (bound : ∀ i : Fin n, |v.get i| ≤ κ) : ‖v‖ ≤ √n * κ := by
  refine abs_le_of_sq_le_sq' ?_ (by positivity) |>.2
  calc
    ‖v‖ ^ 2 = ∑ i : Fin n, v.get i * v.get i := by
      rw [← real_inner_self_eq_norm_sq, ← dot_eq_inner, dot_eq_sum]
    _ ≤ ∑ _i : Fin n, κ * κ := Finset.sum_le_sum fun i _ => by
      rw [← abs_mul_abs_self]
      exact mul_self_le_mul_self (abs_nonneg _) (bound i)
    _ = (√n * κ) ^ 2 := by
      rw [mul_pow, Real.sq_sqrt n.cast_nonneg]
      simp [sq]

namespace SquareMatrix

variable {A : SquareMatrix ℝ n}

theorem norm_mulVec_le {κ : ℝ} (nonneg : 0 ≤ κ) (bound : ∀ i j : Fin n, |(A.get i).get j| ≤ κ)
    (x : Vector ℝ n) : ‖A.mulVec x‖ ≤ n * κ * ‖x‖ := by
  have entry (i : Fin n) : |(A.mulVec x).get i| ≤ √n * κ * ‖x‖ := by
    have row : ‖A.get i‖ ≤ √n * κ := norm_le_of_abs_le nonneg (bound i)
    rw [Vector.get_eq_getElem, getElem_mulVec, dot_eq_inner]
    exact (abs_real_inner_le_norm _ _).trans (mul_le_mul_of_nonneg_right row (norm_nonneg x))
  calc
    ‖A.mulVec x‖ ≤ √n * (√n * κ * ‖x‖) := norm_le_of_abs_le (by positivity) entry
    _ = n * κ * ‖x‖ := by
      rw [← mul_assoc, ← mul_assoc, Real.mul_self_sqrt n.cast_nonneg]

theorem deviation_mulVec (x : Vector ℝ n) :
    A.deviation.mulVec x = A.mulVec x - A.transpose.mulVec x := by
  ext i hi
  have row : A.deviation[i] = A[i] - A.transpose[i] := by
    ext j hj
    simp [deviation]
  rw [Vector.getElem_sub, getElem_mulVec, getElem_mulVec, getElem_mulVec, row, dot_sub_left]

end SquareMatrix

namespace Quadratic

variable (q : Quadratic ℝ n)

theorem gradient_sub_symmetrized (x : Vector ℝ n) :
    q.gradient x - q.symmetrized.gradient x = (0.5 : ℝ) • q.matrix.deviation.mulVec x := by
  simp only [gradient, symmetrized, SquareMatrix.symmetricPart_mulVec,
    SquareMatrix.deviation_mulVec]
  module

/-- The gradient is near the derivative, up to the tolerance of debug mode. -/
def GradientAgrees (x : Vector ℝ n) : Prop :=
  ∃ d, HasGradientAt q.value d x ∧ ‖q.gradient x - d‖ ≤ 1e-4 * max 1 ‖d‖

variable {q}

theorem gradientAgrees_iff {x : Vector ℝ n} : q.GradientAgrees x ↔
    ‖q.gradient x - q.symmetrized.gradient x‖ ≤ 1e-4 * max 1 ‖q.symmetrized.gradient x‖ := by
  have derivative : HasGradientAt q.value (q.symmetrized.gradient x) x := by
    have symmetric : q.symmetrized.matrix.transpose = q.symmetrized.matrix :=
      SquareMatrix.symmetricPart_symmetric q.matrix
    have same : q.symmetrized.value = q.value := funext q.value_symmetrized
    exact same ▸ hasGradientAt_value symmetric x
  constructor
  · rintro ⟨d, derivative', near⟩
    rwa [derivative'.unique derivative] at near
  · exact fun near => ⟨_, derivative, near⟩

theorem requireConsistent_eq_ok_iff {x : Vector ℝ n} :
    Id.run ((q.objective (m := Id)).requireConsistent x Objective.defaultTolerance).run = .ok () ↔
      q.GradientAgrees x :=
  (q.requireConsistent_objective_iff x).trans gradientAgrees_iff.symm

end Quadratic

/-! ## What acceptance gives -/

def SquareMatrix.HasCloseEntries (A : SquareMatrix ℝ n) : Prop :=
  ∀ i j : Fin n, |(A.get i).get j - (A.get j).get i| ≤ 1e-8 + 1e-5 * |(A.get j).get i|

namespace Quadratic

theorem isClose_real (a b : ℝ) : isClose a b = decide (|a - b| ≤ 1e-8 + 1e-5 * |b|) := by
  simp [isClose]

theorem isSymmetric_eq_true_iff {A : SquareMatrix ℝ n} :
    isSymmetric A = true ↔ A.HasCloseEntries := by
  simp only [isSymmetric, SquareMatrix.HasCloseEntries, List.all_eq_true, List.mem_finRange,
    forall_const, isClose_real, decide_eq_true_eq]

variable {q : Quadratic ℝ n}

theorem hasCloseEntries_of_ofTensors {A b : Tensor ℝ} {c : ℝ}
    (accepted : ofTensors A b c = .ok ⟨n, q⟩) : q.matrix.HasCloseEntries := by
  rw [← isSymmetric_eq_true_iff]
  unfold ofTensors at accepted
  split at accepted
  case h_1 => cases accepted
  case h_2 =>
    split at accepted
    case h_1 => cases accepted
    case h_2 =>
      split at accepted
      case isTrue symmetric =>
        cases accepted
        exact symmetric
      case isFalse => cases accepted

theorem ofTensors_ofRows {A : SquareMatrix ℝ n} (b : Vector ℝ n) (c : ℝ)
    (close : A.HasCloseEntries) :
    ofTensors (.ofRows A) (.ofVector b) c = .ok ⟨n, A, b, c⟩ := by
  unfold ofTensors
  rw [(Tensor.holds_ofRows A).toSquare?]
  simp [isSymmetric_eq_true_iff.mpr close]

section Close

variable {largest : ℝ} (greatest : q.matrix.IsLargest largest) (close : q.matrix.HasCloseEntries)

include greatest close

/-- The gradient agrees with the derivative near the origin. -/
theorem gradientAgrees_of_close {x : Vector ℝ n}
    (near : n * (1e-8 + 1e-5 * largest) * ‖x‖ ≤ 2e-4) : q.GradientAgrees x := by
  have entry (i j : Fin n) :
      |(q.matrix.deviation.get i).get j| ≤ 1e-8 + 1e-5 * largest := by
    have deviation_eq : (q.matrix.deviation.get i).get j =
        (q.matrix.get i).get j - (q.matrix.get j).get i := by
      simp [SquareMatrix.deviation]
    rw [deviation_eq]
    exact (close i j).trans (by linarith [greatest.abs_le j i])
  have nonneg : 0 ≤ 1e-8 + 1e-5 * largest := by
    obtain ⟨⟨i, j⟩, attained⟩ := greatest.1
    have magnitude : 0 ≤ largest := attained ▸ abs_nonneg _
    positivity
  -- The gradient is off by half the deviation at the point.
  have bounded := SquareMatrix.norm_mulVec_le nonneg entry x
  rw [gradientAgrees_iff, gradient_sub_symmetrized, norm_smul]
  calc
    ‖(0.5 : ℝ)‖ * ‖q.matrix.deviation.mulVec x‖ ≤ 0.5 * 2e-4 := by
      rw [Real.norm_of_nonneg (by norm_num)]
      gcongr
      exact bounded.trans near
    _ ≤ 1e-4 * max 1 ‖q.symmetrized.gradient x‖ := by
      linarith [le_max_left 1 ‖q.symmetrized.gradient x‖]

/-- A matrix whose largest entry dominates those outside the diagonal is nearly symmetric. -/
theorem isNearlySymmetric_of_close
    (dominant : ∀ i j : Fin n, i ≠ j → 1000 * |(q.matrix.get i).get j| ≤ largest - 1) :
    q.matrix.IsNearlySymmetric SquareMatrix.symmetryTolerance := by
  refine ⟨largest, greatest, fun i j => ?_⟩
  have scale := le_max_left 1 largest
  have scale' := le_max_right 1 largest
  unfold SquareMatrix.symmetryTolerance
  by_cases same : i = j
  · subst same
    rw [sub_self, abs_zero]
    positivity
  · have entry := dominant j i (Ne.symm same)
    have small := close i j
    linarith

end Close

end Quadratic

end Descent
