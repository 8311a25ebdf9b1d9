import Descent.Proofs.Subproblem.Dogleg
import Descent.Proofs.Subproblem.Failure
/-!
# The best point of the dogleg path

With a positive definite Hessian the distance from zero grows along both legs of the dogleg path
and the model falls along both.  So the path leaves the ball at most once, and the last of its
points within the ball reduces the model most.  The Cauchy point is on the first leg.
-/

namespace Descent.Subproblem

variable {n : Nat} {gradient newton step : Vector ℝ n} {hessian : SquareMatrix ℝ n}
  {radius t : ℝ}

/-- The path from zero to the minimizer on the ray of steepest descent and from there to the
Newton step. -/
def path (gradient newton : Vector ℝ n) (hessian : SquareMatrix ℝ n) : Set (Vector ℝ n) :=
  segment ℝ 0 (corner gradient hessian) ∪ segment ℝ (corner gradient hessian) newton

/-- A point of the path within the ball, on its boundary if the Newton step is outside, such that
no other point of the path within the ball reduces the model more. -/
structure BestOnPath (gradient newton : Vector ℝ n) (hessian : SquareMatrix ℝ n) (radius : ℝ)
    (step : Vector ℝ n) : Prop where
  mem_path : step ∈ path gradient newton hessian
  norm_le : norm step ≤ radius
  norm_eq : radius < norm newton → norm step = radius
  modelReduction_le : ∀ q ∈ path gradient newton hessian, norm q ≤ radius →
    modelReduction gradient hessian q ≤ modelReduction gradient hessian step

section Legs

theorem mem_secondLeg {q : Vector ℝ n} :
    q ∈ segment ℝ (corner gradient hessian) newton ↔
      ∃ s : ℝ, 0 ≤ s ∧ s ≤ 1 ∧
        q = corner gradient hessian + s • (newton - corner gradient hessian) := by
  simp only [segment_eq_image', Set.mem_image, Set.mem_Icc, and_assoc, eq_comm]

variable (curvature_pos : 0 < curvature gradient hessian)

include curvature_pos

theorem corner_of_minimizer (minimizer : t * curvature gradient hessian = ‖gradient‖ ^ 2) :
    corner gradient hessian = -t • gradient := by
  rw [corner, dot_self_eq, ← minimizer, mul_div_cancel_right₀ _ curvature_pos.ne', hmul_eq_smul]

theorem le_norm_corner (before : t * curvature gradient hessian ≤ ‖gradient‖ ^ 2) :
    t * ‖gradient‖ ≤ ‖corner gradient hessian‖ := by
  have t_le : t ≤ ‖gradient‖ ^ 2 / curvature gradient hessian :=
    (le_div_iff₀ curvature_pos).mpr before
  rw [corner_of_minimizer curvature_pos (div_mul_cancel₀ _ curvature_pos.ne'),
    norm_neg_smul (by positivity)]
  exact mul_le_mul_of_nonneg_right t_le (norm_nonneg _)

theorem mem_firstLeg {q : Vector ℝ n} :
    q ∈ segment ℝ 0 (corner gradient hessian) ↔
      ∃ s : ℝ, 0 ≤ s ∧ s * curvature gradient hessian ≤ ‖gradient‖ ^ 2 ∧ q = -s • gradient := by
  let turn := ‖gradient‖ ^ 2 / curvature gradient hessian
  have turn_nonneg : 0 ≤ turn := by positivity
  have minimizer : turn * curvature gradient hessian = ‖gradient‖ ^ 2 :=
    div_mul_cancel₀ _ curvature_pos.ne'
  rw [corner_of_minimizer curvature_pos minimizer, segment_eq_image', Set.mem_image]
  constructor
  · rintro ⟨share, ⟨nonneg, le_one⟩, rfl⟩
    refine ⟨share * turn, mul_nonneg nonneg turn_nonneg, ?_, by module⟩
    rw [mul_assoc, minimizer]
    exact mul_le_of_le_one_left (sq_nonneg _) le_one
  · rintro ⟨s, nonneg, before, rfl⟩
    have s_le : s ≤ turn := (le_div_iff₀ curvature_pos).mpr before
    rcases turn_nonneg.eq_or_lt with zero | turn_pos
    · have s_eq : s = 0 := le_antisymm (s_le.trans zero.ge) nonneg
      exact ⟨0, ⟨le_rfl, zero_le_one⟩, by rw [s_eq]; module⟩
    · refine ⟨s / turn, ⟨by positivity, (div_le_one turn_pos).mpr s_le⟩, ?_⟩
      rw [sub_zero, zero_add, smul_smul, mul_neg, div_mul_cancel₀ _ turn_pos.ne']

end Legs

theorem add_smul_eq_of_norm_le {p d : Vector ℝ n} {s : ℝ} (onward : 0 ≤ dot p d)
    (t_nonneg : 0 ≤ t) (t_le : t ≤ s) (no_farther : ‖p + s • d‖ ≤ ‖p + t • d‖) :
    p + s • d = p + t • d := by
  have squares : ‖p + s • d‖ ^ 2 ≤ ‖p + t • d‖ ^ 2 :=
    pow_le_pow_left₀ (norm_nonneg _) no_farther 2
  rw [norm_add_smul_sq, norm_add_smul_sq] at squares
  -- Onwards the squared norm grows by at least the square of the way that is gone.
  have apart : ‖(s - t) • d‖ ^ 2 ≤ 0 := by
    rw [norm_smul, mul_pow, Real.norm_eq_abs, sq_abs]
    have rise : 0 ≤ dot p d * (s - t) := mul_nonneg onward (sub_nonneg.mpr t_le)
    have spread : 0 ≤ ‖d‖ ^ 2 * (t * (s - t)) :=
      mul_nonneg (sq_nonneg _) (mul_nonneg t_nonneg (sub_nonneg.mpr t_le))
    linarith
  have same : (s - t) • d = 0 := norm_eq_zero.mp (pow_eq_zero_iff two_ne_zero |>.mp
    (le_antisymm apart (sq_nonneg _)))
  calc p + s • d = p + t • d + (s - t) • d := by module
    _ = p + t • d := by rw [same, add_zero]

/-- At the corner the model is level along the gradient, so that the share of the corner in the
leg from there to the Newton step is a multiple of the leg's form. -/
theorem dot_corner_leg (symmetric : hessian.transpose = hessian)
    (solves : hessian.mulVec newton = -gradient)
    (minimizer : t * curvature gradient hessian = ‖gradient‖ ^ 2) :
    dot (-t • gradient) (newton - -t • gradient) =
      t * dot (newton - -t • gradient) (hessian.mulVec (newton - -t • gradient)) := by
  have leg : newton - -t • gradient = newton + t • gradient := by module
  have mixed : dot newton (hessian.mulVec gradient) = -‖gradient‖ ^ 2 := by
    rw [SquareMatrix.dot_mulVec_comm symmetric, solves, dot_neg_right, dot_self_eq]
  have form : dot (newton + t • gradient) (hessian.mulVec (newton + t • gradient)) =
      -dot gradient newton - t * ‖gradient‖ ^ 2 := by
    simp only [SquareMatrix.mulVec_add, SquareMatrix.mulVec_smul, dot_add_left, dot_add_right,
      dot_smul_left, dot_smul_right, mixed, solves, dot_neg_right, dot_self_eq,
      dot_comm newton gradient]
    rw [← curvature, minimizer]
    ring
  rw [leg, form, dot_smul_left, dot_add_right, dot_smul_right, dot_self_eq]
  ring

section Convex

variable (symmetric : hessian.transpose = hessian)
  (convex : ∀ x, 0 ≤ dot x (hessian.mulVec x)) (solves : hessian.mulVec newton = -gradient)
  (curvature_pos : 0 < curvature gradient hessian)

include symmetric convex solves curvature_pos

theorem dot_corner_leg_nonneg :
    0 ≤ dot (corner gradient hessian) (newton - corner gradient hessian) := by
  have minimizer : ‖gradient‖ ^ 2 / curvature gradient hessian * curvature gradient hessian =
      ‖gradient‖ ^ 2 := div_mul_cancel₀ _ curvature_pos.ne'
  rw [corner_of_minimizer curvature_pos minimizer, dot_corner_leg symmetric solves minimizer]
  exact mul_nonneg (by positivity) (convex _)

theorem eq_corner_of_norm_le {q : Vector ℝ n}
    (on_second : q ∈ segment ℝ (corner gradient hessian) newton)
    (no_farther : ‖q‖ ≤ ‖corner gradient hessian‖) : q = corner gradient hessian := by
  obtain ⟨s, nonneg, -, rfl⟩ := mem_secondLeg.mp on_second
  have onward := dot_corner_leg_nonneg symmetric convex solves curvature_pos
  have same := add_smul_eq_of_norm_le onward le_rfl nonneg
    (by rwa [zero_smul, add_zero])
  rwa [zero_smul, add_zero] at same

/-- Where the path leaves the ball is the best of its points within. -/
theorem Leaves.bestOnPath (nonzero : gradient ≠ 0)
    (leaves : Leaves gradient newton hessian radius step) :
    BestOnPath gradient newton hessian radius step := by
  have gradient_pos : 0 < ‖gradient‖ := norm_pos_iff.mpr nonzero
  cases leaves with
  | @ray t t_pos length before =>
      have boundary : ‖-t • gradient‖ = radius :=
        (norm_neg_smul t_pos.le gradient).trans length
      have firstLeg : ∀ q ∈ segment ℝ 0 (corner gradient hessian), ‖q‖ ≤ radius →
          modelReduction gradient hessian q ≤ modelReduction gradient hessian (-t • gradient) := by
        intro q on_first within
        obtain ⟨s, nonneg, -, rfl⟩ := (mem_firstLeg curvature_pos).mp on_first
        rw [norm_neg_smul nonneg, ← length] at within
        exact modelReduction_ray_mono nonneg (le_of_mul_le_mul_right within gradient_pos) before
      refine ⟨.inl ((mem_firstLeg curvature_pos).mpr ⟨t, t_pos.le, before, rfl⟩), boundary.le,
        fun _ => boundary, fun q on_path within => ?_⟩
      rcases on_path with on_first | on_second
      · exact firstLeg q on_first within
      · have corner_out : ‖q‖ ≤ ‖corner gradient hessian‖ :=
          within.trans (length.ge.trans (le_norm_corner curvature_pos before))
        obtain rfl : q = corner gradient hessian :=
          eq_corner_of_norm_le symmetric convex solves curvature_pos on_second corner_out
        exact firstLeg _ (right_mem_segment ℝ _ _) within
  | @leg t fraction corner' corner_eq t_pos minimizer inside nonneg le_one boundary =>
      obtain rfl : corner' = corner gradient hessian :=
        corner_eq.trans (corner_of_minimizer curvature_pos minimizer).symm
      refine ⟨.inr (mem_secondLeg.mpr ⟨fraction, nonneg, le_one, rfl⟩), boundary.le,
        fun _ => boundary, fun q on_path within => ?_⟩
      rcases on_path with on_first | on_second
      · obtain ⟨s, s_nonneg, before, rfl⟩ := (mem_firstLeg curvature_pos).mp on_first
        have s_le : s ≤ t := le_of_mul_le_mul_right (before.trans minimizer.ge) curvature_pos
        have first := modelReduction_ray_mono s_nonneg s_le minimizer.le
        have second := modelReduction_leg_mono symmetric convex solves (corner gradient hessian)
          nonneg le_one
        rw [zero_smul, add_zero] at second
        rw [← corner_eq] at first
        exact first.trans second
      · obtain ⟨s, s_nonneg, -, rfl⟩ := mem_secondLeg.mp on_second
        rcases le_total s fraction with earlier | later
        · exact modelReduction_leg_mono symmetric convex solves _ earlier le_one
        · have onward := dot_corner_leg_nonneg symmetric convex solves curvature_pos
          rw [add_smul_eq_of_norm_le onward nonneg later (within.trans boundary.ge)]

end Convex

theorem BestOnPath.of_newton (symmetric : hessian.transpose = hessian)
    (convex : ∀ x, 0 ≤ dot x (hessian.mulVec x)) (solves : hessian.mulVec newton = -gradient)
    (within : norm newton ≤ radius) : BestOnPath gradient newton hessian radius newton where
  mem_path := .inr (right_mem_segment ℝ _ _)
  norm_le := within
  norm_eq outside := absurd within (not_le.mpr outside)
  modelReduction_le q _ _ := modelReduction_le_newton symmetric convex solves q

theorem BestOnPath.modelReduction_cauchy_le
    (curvature_pos : 0 < curvature gradient hessian)
    (best : BestOnPath gradient newton hessian radius step)
    (stops : Stops gradient hessian radius t) :
    modelReduction gradient hessian (-t • gradient) ≤ modelReduction gradient hessian step :=
  best.modelReduction_le _
    (.inl ((mem_firstLeg curvature_pos).mpr ⟨t, stops.nonneg, stops.before, rfl⟩)) stops.norm_le

/-- With a positive definite Hessian the step is the best point of the path, and it does at least as
well as the Cauchy point, also at a zero gradient, where the path does not leave zero. -/
theorem exists_bestOnPath (symmetric : hessian.transpose = hessian) (radius_pos : 0 < radius)
    (definite : hessian.isPosDef = true) (stops : Stops gradient hessian radius t) :
    ∃ newton step, hessian.mulVec newton = -gradient ∧
      doglegStep gradient hessian radius = .ok step ∧
      BestOnPath gradient newton hessian radius step ∧
      modelReduction gradient hessian (-t • gradient) ≤ modelReduction gradient hessian step := by
  have convex := SquareMatrix.dot_mulVec_nonneg_of_isPosDef definite
  obtain ⟨newton, solves, step_eq⟩ := doglegStep_of_isPosDef definite gradient radius
  rw [step_eq]
  by_cases within : ‖newton‖ ≤ radius
  · rw [if_pos within]
    exact ⟨newton, newton, solves, rfl, .of_newton symmetric convex solves within,
      modelReduction_le_newton symmetric convex solves _⟩
  · have nonzero : gradient ≠ 0 := by
      rintro rfl
      rw [neg_zero] at solves
      rw [SquareMatrix.regular_of_isPosDef definite solves, norm_zero] at within
      exact within radius_pos.le
    have curvature_pos := SquareMatrix.dot_mulVec_pos_of_isPosDef definite nonzero
    obtain ⟨step, bent, leaves⟩ :=
      exists_bentStep (not_le.mp within) nonzero radius_pos curvature_pos
    have best := leaves.bestOnPath symmetric convex solves curvature_pos nonzero
    rw [if_neg within]
    exact ⟨newton, step, solves, bent, best, best.modelReduction_cauchy_le curvature_pos stops⟩

/-- The dogleg step does at least as well as the Cauchy point, whatever the symmetric Hessian, and
with a positive definite one it is the best point within the ball of the path that bends at the
minimizer on the ray of steepest descent and ends at the Newton step. -/
theorem doglegStep_minimizes (symmetric : hessian.transpose = hessian) (radius_pos : 0 < radius)
    (gradient : Vector ℝ n) :
    ∃ step cauchy, doglegStep gradient hessian radius = .ok step ∧
      cauchyPoint gradient hessian radius = .ok cauchy ∧
      modelReduction gradient hessian cauchy ≤ modelReduction gradient hessian step ∧
      ((∀ x, x ≠ 0 → 0 < dot x (hessian.mulVec x)) → gradient ≠ 0 →
        ∃ newton, (∀ x, hessian.mulVec x = -gradient ↔ x = newton) ∧
          BestOnPath gradient newton hessian radius step) := by
  obtain ⟨t, stops, cauchy_eq⟩ := exists_cauchyPoint radius_pos gradient hessian
  by_cases definite : hessian.isPosDef = true
  · obtain ⟨newton, step, solves, step_eq, best, le_step⟩ :=
      exists_bestOnPath symmetric radius_pos definite stops
    refine ⟨step, -t • gradient, step_eq, cauchy_eq, le_step,
      fun _ _ => ⟨newton, fun x => ?_, best⟩⟩
    constructor
    · intro solves'
      refine sub_eq_zero.mp (SquareMatrix.regular_of_isPosDef definite ?_)
      rw [sub_eq_add_neg, SquareMatrix.mulVec_add, SquareMatrix.mulVec_neg, solves', solves,
        add_neg_cancel]
    · rintro rfl
      exact solves
  · rw [doglegStep_of_not_isPosDef definite]
    exact ⟨-t • gradient, -t • gradient, cauchy_eq, cauchy_eq, le_rfl,
      fun positive => absurd (SquareMatrix.isPosDef_iff.mpr positive) definite⟩

theorem doglegStep_minimizes_bent :
    let hessian : SquareMatrix ℝ 2 := #v[#v[2, -1], #v[-1, 1]]
    hessian.transpose = hessian ∧ (0 : ℝ) < 3 ∧
      (∀ x, x ≠ 0 → 0 < dot x (hessian.mulVec x)) ∧ #v[(1 : ℝ), 1] ≠ 0 ∧
      ∃ step, doglegStep #v[1, 1] hessian 3 = .ok step ∧ norm step = 3 ∧
        modelReduction #v[1, 1] hessian (corner #v[1, 1] hessian) ≤
          modelReduction #v[1, 1] hessian step := by
  intro hessian
  have symmetric : hessian.transpose = hessian := rfl
  have radius_pos : (0 : ℝ) < 3 := by norm_num
  have positive : ∀ x, x ≠ 0 → 0 < dot x (hessian.mulVec x) := by
    intro x nonzero
    have length_pos := dot_self_pos nonzero
    norm_num [hessian, dot_eq_sum] at length_pos ⊢
    linarith [sq_nonneg ((5 : ℝ) * x[0] - (3 : ℝ) * x[1]), sq_nonneg x[1]]
  have nonzero : #v[(1 : ℝ), 1] ≠ 0 := by
    intro zero
    have head := congrArg (fun v : Vector ℝ 2 => v[0]) zero
    norm_num at head
  obtain ⟨step, -, step_eq, -, -, best⟩ :=
    doglegStep_minimizes symmetric radius_pos #v[(1 : ℝ), 1]
  obtain ⟨newton, solution, best⟩ := best positive nonzero
  refine ⟨symmetric, radius_pos, positive, nonzero, step, step_eq, best.norm_eq ?_,
    best.modelReduction_le _ (.inl (right_mem_segment ℝ _ _)) ?_⟩
  · have newton_eq : #v[-2, -3] = newton := by
      refine (solution _).mp ?_
      ext i hi
      interval_cases i <;> norm_num [hessian, dot_eq_sum]
    rw [← newton_eq, Descent.norm, Scalar.sqrt_real, Real.lt_sqrt (by norm_num)]
    norm_num [dot_eq_sum]
  · rw [Descent.norm, Scalar.sqrt_real, Real.sqrt_le_left (by norm_num)]
    norm_num [corner, curvature, hessian, dot_eq_sum]

end Descent.Subproblem
