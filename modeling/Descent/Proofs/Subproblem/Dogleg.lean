import Descent.Proofs.Subproblem.Boundary
/-!
# The decrease of the dogleg step

Where the model is convex it falls along the whole dogleg path, so that a step on the path
does at least as well as the point on the ray of steepest descent where the path starts.
-/

namespace Descent.Subproblem

variable {n : Nat} {gradient : Vector ℝ n} {hessian : SquareMatrix ℝ n} {radius bound : ℝ}

section Newton

variable {newton : Vector ℝ n}

/-- Away from the Newton step the model rises by half its form. -/
theorem modelReduction_newton_add (symmetric : hessian.transpose = hessian)
    (solves : hessian.mulVec newton = -gradient) (e : Vector ℝ n) :
    modelReduction gradient hessian (newton + e) =
      modelReduction gradient hessian newton - dot e (hessian.mulVec e) / 2 := by
  have mixed : dot newton (hessian.mulVec e) = -dot gradient e := by
    rw [SquareMatrix.dot_mulVec_comm symmetric, solves, dot_neg_right, dot_comm]
  simp only [modelReduction, SquareMatrix.mulVec_add, dot_add_left, dot_add_right, mixed, solves,
    dot_neg_right, dot_comm e gradient]
  ring

theorem modelReduction_le_newton (symmetric : hessian.transpose = hessian)
    (convex : ∀ x, 0 ≤ dot x (hessian.mulVec x)) (solves : hessian.mulVec newton = -gradient)
    (step : Vector ℝ n) :
    modelReduction gradient hessian step ≤ modelReduction gradient hessian newton := by
  have split := modelReduction_newton_add symmetric solves (step - newton)
  rw [add_sub_cancel] at split
  linarith [convex (step - newton)]

theorem modelReduction_segment (p d : Vector ℝ n) (convex : 0 ≤ dot d (hessian.mulVec d)) {t : ℝ}
    (t_nonneg : 0 ≤ t) (t_le : t ≤ 1) :
    (1 - t) * modelReduction gradient hessian p + t * modelReduction gradient hessian (p + d) ≤
      modelReduction gradient hessian (p + t • d) := by
  have bend : modelReduction gradient hessian (p + t • d) =
      (1 - t) * modelReduction gradient hessian p + t * modelReduction gradient hessian (p + d) +
        t * (1 - t) / 2 * dot d (hessian.mulVec d) := by
    simp only [modelReduction, SquareMatrix.mulVec_add, SquareMatrix.mulVec_smul, dot_add_left,
      dot_add_right, dot_smul_left, dot_smul_right]
    ring
  have gap : 0 ≤ t * (1 - t) / 2 * dot d (hessian.mulVec d) :=
    mul_nonneg (div_nonneg (mul_nonneg t_nonneg (sub_nonneg.mpr t_le)) zero_le_two) convex
  linarith

/-- A convex model falls along the way to the Newton step, because its excess over the reduction
there shrinks with the square of what is left of the way. -/
theorem modelReduction_leg_mono (symmetric : hessian.transpose = hessian)
    (convex : ∀ x, 0 ≤ dot x (hessian.mulVec x)) (solves : hessian.mulVec newton = -gradient)
    (corner : Vector ℝ n) {s t : ℝ} (s_le : s ≤ t) (t_le : t ≤ 1) :
    modelReduction gradient hessian (corner + s • (newton - corner)) ≤
      modelReduction gradient hessian (corner + t • (newton - corner)) := by
  have excess : ∀ r : ℝ, modelReduction gradient hessian (corner + r • (newton - corner)) =
      modelReduction gradient hessian newton -
        (1 - r) ^ 2 * (dot (corner - newton) (hessian.mulVec (corner - newton)) / 2) := by
    intro r
    have left : corner + r • (newton - corner) = newton + (1 - r) • (corner - newton) := by module
    rw [left, modelReduction_newton_add symmetric solves, SquareMatrix.mulVec_smul, dot_smul_left,
      dot_smul_right]
    ring
  have closer : (1 - t) ^ 2 ≤ (1 - s) ^ 2 := by
    refine pow_le_pow_left₀ (sub_nonneg.mpr t_le) ?_ 2
    linarith
  rw [excess, excess]
  refine sub_le_sub_left (mul_le_mul_of_nonneg_right closer ?_) _
  exact div_nonneg (convex _) zero_le_two

end Newton

section Path

/-- Where the bent path leaves the ball: on the ray of steepest descent, not beyond the
minimizer, or on the leg from that minimizer to the Newton step. -/
inductive Leaves (gradient newton : Vector ℝ n) (hessian : SquareMatrix ℝ n) (radius : ℝ) :
    Vector ℝ n → Prop
  | ray {t : ℝ} : 0 < t → t * ‖gradient‖ = radius →
      t * curvature gradient hessian ≤ ‖gradient‖ ^ 2 →
      Leaves gradient newton hessian radius (-t • gradient)
  | leg {t fraction : ℝ} {corner : Vector ℝ n} : corner = -t • gradient → 0 < t →
      t * curvature gradient hessian = ‖gradient‖ ^ 2 → t * ‖gradient‖ < radius →
      0 ≤ fraction → fraction ≤ 1 → ‖corner + fraction • (newton - corner)‖ = radius →
      Leaves gradient newton hessian radius (corner + fraction • (newton - corner))

theorem exists_bentStep {newton : Vector ℝ n} (outside : radius < ‖newton‖)
    (nonzero : gradient ≠ 0) (radius_pos : 0 < radius)
    (curvature_pos : 0 < curvature gradient hessian) :
    ∃ step, bentStep gradient newton hessian radius = .ok step ∧
      Leaves gradient newton hessian radius step := by
  have gradient_pos : 0 < ‖gradient‖ := norm_pos_iff.mpr nonzero
  -- The path turns at the minimizer on the ray of steepest descent.
  let t := ‖gradient‖ ^ 2 / curvature gradient hessian
  have t_pos : 0 < t := by positivity
  have minimizer : t * curvature gradient hessian = ‖gradient‖ ^ 2 :=
    div_mul_cancel₀ _ curvature_pos.ne'
  let corner := -t • gradient
  have corner_norm : ‖corner‖ = t * ‖gradient‖ := norm_neg_smul t_pos.le gradient
  unfold bentStep
  simp only [dot_self_eq, quotient_real curvature_pos.ne', bind, Except.bind, pure, Except.pure,
    norm_eq_norm, hmul_eq_smul]
  change ∃ step, (if radius ≤ ‖corner‖ then _ else _) = Except.ok step ∧ _
  by_cases first : radius ≤ ‖corner‖
  · have corner_pos : 0 < ‖corner‖ := radius_pos.trans_le first
    let s := radius / ‖corner‖ * t
    have s_pos : 0 < s := by positivity
    have length : s * ‖gradient‖ = radius := by
      rw [mul_assoc, ← corner_norm, div_mul_cancel₀ _ corner_pos.ne']
    have shortened : (radius / ‖corner‖) • corner = -s • gradient := by
      rw [smul_smul, mul_neg]
    refine ⟨-s • gradient, ?_, .ray s_pos length ?_⟩
    · rw [if_pos first, quotient_real corner_pos.ne', ← shortened]
    · have s_le : s ≤ t := mul_le_of_le_one_left t_pos.le ((div_le_one corner_pos).mpr first)
      exact (mul_le_mul_of_nonneg_right s_le curvature_pos.le).trans minimizer.le
  · have inside : ‖corner‖ < radius := not_le.mp first
    have moves : newton - corner ≠ 0 := fun zero => by
      rw [sub_eq_zero.mp zero] at outside
      exact lt_asymm inside outside
    obtain ⟨fraction, fraction_eq, exits⟩ := exists_boundaryIntersection moves inside.le
    have le_one : fraction ≤ 1 := (exits.lt_one (by rwa [add_sub_cancel])).le
    refine ⟨corner + fraction • (newton - corner), ?_,
      .leg rfl t_pos minimizer (corner_norm ▸ inside) exits.nonneg le_one exits.norm_eq⟩
    rw [if_neg first, fraction_eq]

theorem Leaves.reduces {newton step : Vector ℝ n}
    (leaves : Leaves gradient newton hessian radius step)
    (symmetric : hessian.transpose = hessian) (convex : ∀ x, 0 ≤ dot x (hessian.mulVec x))
    (solves : hessian.mulVec newton = -gradient) (nonzero : gradient ≠ 0) (bound_pos : 0 < bound)
    (curvature_pos : 0 < curvature gradient hessian)
    (curvature_le : curvature gradient hessian ≤ bound * ‖gradient‖ ^ 2) :
    Reduces gradient hessian radius bound step := by
  cases leaves with
  | ray t_pos length before =>
      refine .of_gradient t_pos.le length.le before ?_
      rw [length]
      exact min_le_left _ _
  | @leg t fraction corner corner_eq t_pos minimizer inside nonneg le_one boundary =>
      have gradient_pos : 0 < ‖gradient‖ := norm_pos_iff.mpr nonzero
      have far : ‖gradient‖ / bound ≤ t * ‖gradient‖ := by
        rw [div_le_iff₀ bound_pos]
        have scaled : 1 ≤ t * bound := by
          by_contra short
          nlinarith [mul_pos gradient_pos gradient_pos, not_le.mp short]
        nlinarith
      have atCorner : Reduces gradient hessian radius bound corner := by
        rw [corner_eq]
        exact .of_gradient t_pos.le inside.le minimizer.le ((min_le_right _ _).trans far)
      have leg := modelReduction_leg_mono symmetric convex solves corner nonneg le_one
      rw [zero_smul, add_zero] at leg
      exact ⟨boundary.le, atCorner.le_reduction.trans leg⟩

/-- In a convex model the path ends at the Newton step, and bends if that is not in the ball. -/
theorem doglegStep_of_isPosDef (definite : hessian.isPosDef = true) (gradient : Vector ℝ n)
    (radius : ℝ) :
    ∃ newton, hessian.mulVec newton = -gradient ∧
      doglegStep gradient hessian radius =
        if ‖newton‖ ≤ radius then .ok newton else bentStep gradient newton hessian radius := by
  obtain ⟨x, solution, solves⟩ := SquareMatrix.exists_solve?
    (fun _ => SquareMatrix.regular_of_isPosDef definite) gradient
  refine ⟨-x, by rw [SquareMatrix.mulVec_neg, solves], ?_⟩
  unfold doglegStep
  rw [if_pos definite, SquareMatrix.ridgeSolve_of_solve? solution]
  rfl

theorem doglegStep_of_not_isPosDef (indefinite : ¬ hessian.isPosDef = true)
    (gradient : Vector ℝ n) (radius : ℝ) :
    doglegStep gradient hessian radius = cauchyPoint gradient hessian radius :=
  if_neg indefinite

theorem doglegStep_reduces (symmetric : hessian.transpose = hessian) (nonzero : gradient ≠ 0)
    (radius_pos : 0 < radius) (bound_pos : 0 < bound)
    (curvature_le : curvature gradient hessian ≤ bound * ‖gradient‖ ^ 2) :
    ∃ step, doglegStep gradient hessian radius = .ok step ∧
      Reduces gradient hessian radius bound step := by
  obtain ⟨cauchy, cauchy_eq, cauchy_reduces⟩ :=
    cauchyPoint_reduces radius_pos bound_pos curvature_le
  by_cases definite : hessian.isPosDef = true
  · obtain ⟨newton, solves, step_eq⟩ := doglegStep_of_isPosDef definite gradient radius
    have convex := SquareMatrix.dot_mulVec_nonneg_of_isPosDef definite
    rw [step_eq]
    by_cases within : ‖newton‖ ≤ radius
    · rw [if_pos within]
      exact ⟨newton, rfl, within, cauchy_reduces.le_reduction.trans
        (modelReduction_le_newton symmetric convex solves cauchy)⟩
    · rw [if_neg within]
      have curvature_pos := SquareMatrix.dot_mulVec_pos_of_isPosDef definite nonzero
      obtain ⟨step, bent, leaves⟩ :=
        exists_bentStep (not_le.mp within) nonzero radius_pos curvature_pos
      exact ⟨step, bent, leaves.reduces symmetric convex solves nonzero bound_pos curvature_pos
        curvature_le⟩
  · rw [doglegStep_of_not_isPosDef definite]
    exact ⟨cauchy, cauchy_eq, cauchy_reduces⟩

end Path

theorem solve_of_stepOf {method : SearchMethod} {step : Vector ℝ n} (radius_pos : 0 < radius)
    (step_eq : stepOf method gradient hessian radius = .ok step) :
    solve method gradient hessian radius = .ok (assess gradient hessian radius step) := by
  unfold solve checkRadius
  rw [if_neg radius_pos.not_ge, step_eq]
  rfl

theorem solve_reduces (method : SearchMethod) (symmetric : hessian.transpose = hessian)
    (nonzero : gradient ≠ 0) (radius_pos : 0 < radius) (bound_pos : 0 < bound)
    (curvature_le : curvature gradient hessian ≤ bound * ‖gradient‖ ^ 2) :
    ∃ trial, solve method gradient hessian radius = .ok trial ∧
      trial.predictedReduction = modelReduction gradient hessian trial.step ∧
      Reduces gradient hessian radius bound trial.step := by
  have found : ∃ step, stepOf method gradient hessian radius = .ok step ∧
      Reduces gradient hessian radius bound step := by
    cases method with
    | cauchy => exact cauchyPoint_reduces radius_pos bound_pos curvature_le
    | dogleg => exact doglegStep_reduces symmetric nonzero radius_pos bound_pos curvature_le
  obtain ⟨step, step_eq, reduces⟩ := found
  exact ⟨assess gradient hessian radius step, solve_of_stepOf radius_pos step_eq, rfl, reduces⟩

end Descent.Subproblem
