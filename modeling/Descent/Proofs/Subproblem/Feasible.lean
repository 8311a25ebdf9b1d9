import Descent.Proofs.Extended.Subproblem
/-!
# Feasible steps that improve

Whatever the Hessian, both methods stay within the ball and lower the model unless the
gradient is zero.  On the second leg of the dogleg path this is because the model, whose form
is positive there, lies below its chord, and both ends of the chord lie below zero.
-/

namespace Descent.Subproblem

open Extended (embed embedMatrix)

variable {n : Nat} {gradient newton step : Vector ℝ n} {hessian : SquareMatrix ℝ n} {radius : ℝ}

/-- A step within the ball for which the model falls, unless its gradient is zero. -/
structure Improves (gradient : Vector ℝ n) (hessian : SquareMatrix ℝ n) (radius : ℝ)
    (step : Vector ℝ n) : Prop where
  norm_le : ‖step‖ ≤ radius
  falls : gradient ≠ 0 → 0 < modelReduction gradient hessian step

theorem modelReduction_ray_pos {t : ℝ} (nonzero : gradient ≠ 0) (t_pos : 0 < t)
    (before : t * curvature gradient hessian ≤ ‖gradient‖ ^ 2) :
    0 < modelReduction gradient hessian (-t • gradient) := by
  have gradient_pos : 0 < ‖gradient‖ := norm_pos_iff.mpr nonzero
  have promised : 0 < ‖gradient‖ / 2 * (t * ‖gradient‖) := by positivity
  exact promised.trans_le (half_le_modelReduction t_pos.le before)

theorem Stops.improves {t : ℝ} (radius_pos : 0 < radius)
    (stops : Stops gradient hessian radius t) :
    Improves gradient hessian radius (-t • gradient) where
  norm_le := stops.norm_le
  falls := by
    intro nonzero
    have gradient_pos : 0 < ‖gradient‖ := norm_pos_iff.mpr nonzero
    refine modelReduction_ray_pos nonzero (stops.nonneg.lt_of_ne ?_) stops.before
    -- At zero there is neither the boundary nor the minimizer.
    rintro rfl
    rcases stops.stops with boundary | minimizer
    · exact radius_pos.ne ((zero_mul _).symm.trans boundary)
    · exact (pow_pos gradient_pos 2).ne ((zero_mul _).symm.trans minimizer)

theorem cauchyPoint_improves (radius_pos : 0 < radius) (gradient : Vector ℝ n)
    (hessian : SquareMatrix ℝ n) :
    ∃ step, cauchyPoint gradient hessian radius = .ok step ∧
      Improves gradient hessian radius step := by
  obtain ⟨t, stops, step_eq⟩ := exists_cauchyPoint radius_pos gradient hessian
  exact ⟨-t • gradient, step_eq, stops.improves radius_pos⟩

section Newton

variable (definite : hessian.isPosDef = true) (solves : hessian.mulVec newton = -gradient)

include solves in
theorem modelReduction_newton :
    modelReduction gradient hessian newton = dot newton (hessian.mulVec newton) / 2 := by
  rw [modelReduction, solves, dot_neg_right, dot_comm newton]
  ring

include definite solves

theorem modelReduction_newton_pos (nonzero : gradient ≠ 0) :
    0 < modelReduction gradient hessian newton := by
  have newton_nonzero : newton ≠ 0 := by
    rintro rfl
    have product : hessian.mulVec (0 : Vector ℝ n) = 0 := by
      rw [← zero_smul ℝ (0 : Vector ℝ n), SquareMatrix.mulVec_smul, zero_smul, zero_smul]
    rw [product] at solves
    exact nonzero (neg_eq_zero.mp solves.symm)
  rw [modelReduction_newton solves]
  exact half_pos (SquareMatrix.dot_mulVec_pos_of_isPosDef definite newton_nonzero)

theorem Leaves.improves (nonzero : gradient ≠ 0)
    (leaves : Leaves gradient newton hessian radius step) :
    Improves gradient hessian radius step := by
  cases leaves with
  | @ray t t_pos length before =>
      exact ⟨(norm_neg_smul t_pos.le gradient).trans_le length.le,
        fun _ => modelReduction_ray_pos nonzero t_pos before⟩
  | @leg t fraction corner corner_eq t_pos minimizer inside nonneg le_one boundary =>
      have atCorner : 0 < modelReduction gradient hessian corner := by
        rw [corner_eq]
        exact modelReduction_ray_pos nonzero t_pos minimizer.le
      have atNewton := modelReduction_newton_pos definite solves nonzero
      have chord : (1 - fraction) * modelReduction gradient hessian corner +
          fraction * modelReduction gradient hessian (corner + (newton - corner)) ≤
            modelReduction gradient hessian (corner + fraction • (newton - corner)) :=
        modelReduction_segment corner (newton - corner)
          (SquareMatrix.dot_mulVec_nonneg_of_isPosDef definite _) nonneg le_one
      rw [add_sub_cancel] at chord
      refine ⟨boundary.le, fun _ => ?_⟩
      -- One of the two weights is positive, and so are both ends of the chord.
      rcases nonneg.eq_or_lt with rfl | positive
      · linarith
      · have share := mul_pos positive atNewton
        have rest := mul_nonneg (sub_nonneg.mpr le_one) atCorner.le
        linarith

end Newton

theorem doglegStep_improves (radius_pos : 0 < radius) (gradient : Vector ℝ n)
    (hessian : SquareMatrix ℝ n) :
    ∃ step, doglegStep gradient hessian radius = .ok step ∧
      Improves gradient hessian radius step := by
  by_cases definite : hessian.isPosDef = true
  · obtain ⟨newton, solves, step_eq⟩ := doglegStep_of_isPosDef definite gradient radius
    rw [step_eq]
    by_cases within : ‖newton‖ ≤ radius
    · rw [if_pos within]
      exact ⟨newton, rfl, within, modelReduction_newton_pos definite solves⟩
    · have nonzero : gradient ≠ 0 := by
        rintro rfl
        rw [neg_zero] at solves
        rw [SquareMatrix.regular_of_isPosDef definite solves, norm_zero] at within
        exact within radius_pos.le
      obtain ⟨step, bent, leaves⟩ := exists_bentStep (not_le.mp within) nonzero radius_pos
        (SquareMatrix.dot_mulVec_pos_of_isPosDef definite nonzero)
      rw [if_neg within]
      exact ⟨step, bent, leaves.improves definite solves nonzero⟩
  · rw [doglegStep_of_not_isPosDef definite]
    exact cauchyPoint_improves radius_pos gradient hessian

theorem exists_solve (radius_pos : 0 < radius) (method : SearchMethod) (gradient : Vector ℝ n)
    (hessian : SquareMatrix ℝ n) :
    ∃ trial, solve method gradient hessian radius = .ok trial ∧
      trial.predictedReduction = modelReduction gradient hessian trial.step ∧
      Improves gradient hessian radius trial.step := by
  have found : ∃ step, stepOf method gradient hessian radius = .ok step ∧
      Improves gradient hessian radius step := by
    cases method with
    | cauchy => exact cauchyPoint_improves radius_pos gradient hessian
    | dogleg => exact doglegStep_improves radius_pos gradient hessian
  obtain ⟨step, step_eq, improves⟩ := found
  exact ⟨assess gradient hessian radius step, solve_of_stepOf radius_pos step_eq, rfl, improves⟩

theorem exists_boundaryIntersection_eq (p d : Vector ℝ n) (radius : ℝ) :
    ∃ t, boundaryIntersection p d radius = .ok t := by
  unfold boundaryIntersection
  simp only [square_real]
  split_ifs
  · exact ⟨_, rfl⟩
  · exact ⟨_, rfl⟩

/-- Both methods answer with a step within the ball, which lowers the model unless the gradient
is zero.  None of their divisions has a zero divisor, nor has that of the intersection with
the boundary: such a quotient would be an error or, in the extended reals, no real number, and
there the same answers are found. -/
theorem solve_improves (radius_pos : 0 < radius) (method : SearchMethod) (gradient : Vector ℝ n)
    (hessian : SquareMatrix ℝ n) :
    (∃ trial, solve method gradient hessian radius = .ok trial ∧
      solve method (embed gradient) (embedMatrix hessian) (.real radius) = .ok trial.embed ∧
      norm trial.step ≤ radius ∧
      trial.predictedReduction = modelReduction gradient hessian trial.step ∧
      (gradient ≠ 0 → 0 < trial.predictedReduction)) ∧
    ∀ (p d : Vector ℝ n) (r : ℝ), ∃ t, boundaryIntersection p d r = .ok t ∧
      boundaryIntersection (embed p) (embed d) (.real r) = .ok (.real t) := by
  constructor
  · obtain ⟨trial, solved, predicted_eq, improves⟩ :=
      exists_solve radius_pos method gradient hessian
    have image := Extended.solve_transfers gradient hessian radius method trial solved
    refine ⟨trial, solved, image, improves.norm_le, predicted_eq, ?_⟩
    rw [predicted_eq]
    exact improves.falls
  · intro p d r
    obtain ⟨t, found⟩ := exists_boundaryIntersection_eq p d r
    exact ⟨t, found, Extended.boundaryIntersection_transfers p d r t found⟩

/-- With this Hessian, which is not symmetric, the Newton step has length one, and the step is
on the second leg of the path. -/
theorem solve_improves_leg :
    (0 : ℝ) < 3 / 4 ∧ ∃ trial,
      solve .dogleg #v[(1 : ℝ), 1] #v[#v[4, 1], #v[-1, 1]] (3 / 4) = .ok trial ∧
        norm trial.step ≤ 3 / 4 ∧ 0 < trial.predictedReduction := by
  have radius_pos : (0 : ℝ) < 3 / 4 := by norm_num
  obtain ⟨⟨trial, solved, _, within, _, falls⟩, _⟩ :=
    solve_improves radius_pos .dogleg #v[(1 : ℝ), 1] #v[#v[4, 1], #v[-1, 1]]
  refine ⟨radius_pos, trial, solved, within, falls ?_⟩
  intro zero
  have head := congrArg (fun v : Vector ℝ 2 => v[0]) zero
  norm_num at head

end Descent.Subproblem
