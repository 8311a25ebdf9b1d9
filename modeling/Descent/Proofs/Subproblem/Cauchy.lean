import Descent.Proofs.Linear.Definite
import Descent.Subproblem
/-!
# The decrease of the Cauchy point

Along the ray of steepest descent the model falls as far as its minimizer, by at least half of
what its slope promises.  The Cauchy point goes that far or to the boundary, whichever is nearer,
so that no point of the ray within the ball does better.
-/

namespace Descent.Subproblem

variable {n : Nat} {gradient : Vector ℝ n} {hessian : SquareMatrix ℝ n} {radius bound : ℝ}

/-- A step within the ball for which the model falls by at least half the gradient norm times
the distance to the boundary or to the minimizer under the greatest curvature. -/
structure Reduces (gradient : Vector ℝ n) (hessian : SquareMatrix ℝ n) (radius bound : ℝ)
    (step : Vector ℝ n) : Prop where
  norm_le : ‖step‖ ≤ radius
  le_reduction : ‖gradient‖ / 2 * min radius (‖gradient‖ / bound) ≤
    modelReduction gradient hessian step

theorem dot_self_eq (x : Vector ℝ n) : dot x x = ‖x‖ ^ 2 :=
  real_inner_self_eq_norm_sq x

theorem norm_neg_smul {t : ℝ} (t_nonneg : 0 ≤ t) (x : Vector ℝ n) : ‖-t • x‖ = t * ‖x‖ := by
  rw [norm_smul, norm_neg, Real.norm_of_nonneg t_nonneg]

theorem modelReduction_gradient (t : ℝ) :
    modelReduction gradient hessian (-t • gradient) =
      t * ‖gradient‖ ^ 2 - t ^ 2 / 2 * curvature gradient hessian := by
  simp only [modelReduction, curvature, SquareMatrix.mulVec_smul, dot_smul_left, dot_smul_right,
    dot_self_eq]
  ring

theorem half_le_modelReduction {t : ℝ} (t_nonneg : 0 ≤ t)
    (before : t * curvature gradient hessian ≤ ‖gradient‖ ^ 2) :
    ‖gradient‖ / 2 * (t * ‖gradient‖) ≤ modelReduction gradient hessian (-t • gradient) := by
  rw [modelReduction_gradient]
  nlinarith

/-- A step along the ray of steepest descent up to the minimizer reduces the model enough, if
it reaches the boundary or is as long as the greatest curvature allows. -/
theorem Reduces.of_gradient {t : ℝ} (t_nonneg : 0 ≤ t)
    (within : t * ‖gradient‖ ≤ radius)
    (before : t * curvature gradient hessian ≤ ‖gradient‖ ^ 2)
    (far : min radius (‖gradient‖ / bound) ≤ t * ‖gradient‖) :
    Reduces gradient hessian radius bound (-t • gradient) where
  norm_le := (norm_neg_smul t_nonneg gradient).trans_le within
  le_reduction :=
    (mul_le_mul_of_nonneg_left far (by positivity)).trans (half_le_modelReduction t_nonneg before)

theorem modelReduction_ray_mono {s t : ℝ} (s_nonneg : 0 ≤ s) (s_le : s ≤ t)
    (before : t * curvature gradient hessian ≤ ‖gradient‖ ^ 2) :
    modelReduction gradient hessian (-s • gradient) ≤
      modelReduction gradient hessian (-t • gradient) := by
  have factored : modelReduction gradient hessian (-t • gradient) -
      modelReduction gradient hessian (-s • gradient) =
        (t - s) * (‖gradient‖ ^ 2 - (s + t) / 2 * curvature gradient hessian) := by
    rw [modelReduction_gradient, modelReduction_gradient]
    ring
  have earlier : s * curvature gradient hessian ≤ ‖gradient‖ ^ 2 := by
    rcases le_total 0 (curvature gradient hessian) with up | down
    · exact (mul_le_mul_of_nonneg_right s_le up).trans before
    · exact (mul_nonpos_of_nonneg_of_nonpos s_nonneg down).trans (sq_nonneg _)
  have gain : 0 ≤ (t - s) * (‖gradient‖ ^ 2 - (s + t) / 2 * curvature gradient hessian) :=
    mul_nonneg (sub_nonneg.mpr s_le) (by linarith)
  linarith

/-- How far the Cauchy point goes along the ray of steepest descent: to the minimizer, or to the
boundary if that comes first. -/
structure Stops (gradient : Vector ℝ n) (hessian : SquareMatrix ℝ n) (radius t : ℝ) : Prop where
  nonneg : 0 ≤ t
  within : t * ‖gradient‖ ≤ radius
  before : t * curvature gradient hessian ≤ ‖gradient‖ ^ 2
  stops : t * ‖gradient‖ = radius ∨ t * curvature gradient hessian = ‖gradient‖ ^ 2

theorem exists_cauchyFraction {length : ℝ} (length_pos : 0 < length) (radius_pos : 0 < radius)
    (curvature : ℝ) :
    ∃ fraction, cauchyFraction length curvature radius = .ok fraction ∧
      0 ≤ fraction ∧ fraction ≤ 1 ∧ fraction * radius * curvature ≤ length ^ 3 ∧
      (fraction = 1 ∨ fraction * radius * curvature = length ^ 3) := by
  unfold cauchyFraction
  by_cases concave : curvature ≤ 0
  · refine ⟨1, if_pos concave, zero_le_one, le_rfl, ?_, .inl rfl⟩
    have falls : 1 * radius * curvature ≤ 0 := by nlinarith
    exact falls.trans (by positivity)
  · have curvature_pos : 0 < curvature := not_le.mp concave
    have product_pos : 0 < radius * curvature := mul_pos radius_pos curvature_pos
    refine ⟨min (length ^ 3 / (radius * curvature)) 1, ?_, ?_, min_le_right _ _, ?_, ?_⟩
    · simp only [if_neg concave, cube_real, bind, Except.bind, quotient_real product_pos.ne', pure,
        Except.pure, Scalar.smaller_real]
      ring_nf
    · positivity
    · calc min (length ^ 3 / (radius * curvature)) 1 * radius * curvature
          = min (length ^ 3 / (radius * curvature)) 1 * (radius * curvature) := mul_assoc _ _ _
        _ ≤ length ^ 3 / (radius * curvature) * (radius * curvature) :=
          mul_le_mul_of_nonneg_right (min_le_left _ _) product_pos.le
        _ = length ^ 3 := div_mul_cancel₀ _ product_pos.ne'
    · rcases min_choice (length ^ 3 / (radius * curvature)) 1 with minimizer | boundary
      · right
        rw [minimizer, mul_assoc, div_mul_cancel₀ _ product_pos.ne']
      · exact .inl boundary

theorem exists_cauchyPoint (radius_pos : 0 < radius) (gradient : Vector ℝ n)
    (hessian : SquareMatrix ℝ n) :
    ∃ t, Stops gradient hessian radius t ∧
      cauchyPoint gradient hessian radius = .ok (-t • gradient) := by
  unfold cauchyPoint
  by_cases zero : gradient = 0
  · subst zero
    refine ⟨0, ⟨le_rfl, ?_, ?_, .inr ?_⟩, ?_⟩
    · simpa using radius_pos.le
    · simp
    · simp
    · rw [if_pos (by simp), neg_zero, zero_smul]
      rfl
  · have gradient_pos : 0 < ‖gradient‖ := norm_pos_iff.mpr zero
    obtain ⟨fraction, fraction_eq, nonneg, le_one, before, stops⟩ :=
      exists_cauchyFraction gradient_pos radius_pos (curvature gradient hessian)
    have length : fraction * radius / ‖gradient‖ * ‖gradient‖ = fraction * radius :=
      div_mul_cancel₀ _ gradient_pos.ne'
    have rise : fraction * radius / ‖gradient‖ * curvature gradient hessian =
        fraction * radius * curvature gradient hessian / ‖gradient‖ := by ring
    refine ⟨fraction * radius / ‖gradient‖, ⟨by positivity, ?_, ?_, ?_⟩, ?_⟩
    · rw [length]
      exact mul_le_of_le_one_left radius_pos.le le_one
    · rw [rise, div_le_iff₀ gradient_pos, ← pow_succ]
      exact before
    · refine stops.imp (fun whole => ?_) fun minimizer => ?_
      · rw [length, whole, one_mul]
      · rw [rise, div_eq_iff gradient_pos.ne', ← pow_succ]
        exact minimizer
    · simp only [norm_eq_norm, Scalar.isZero_real, gradient_pos.ne', decide_false, fraction_eq,
        Bool.false_eq_true, if_false, bind, Except.bind, quotient_real gradient_pos.ne', pure,
        Except.pure, hmul_eq_smul]

namespace Stops

variable {t : ℝ} (stops : Stops gradient hessian radius t)

include stops

theorem norm_le : ‖-t • gradient‖ ≤ radius :=
  (norm_neg_smul stops.nonneg gradient).trans_le stops.within

/-- Where the greatest curvature is bounded, the point goes as far as to the boundary or to the
minimizer under that curvature. -/
theorem reduces (bound_pos : 0 < bound)
    (curvature_le : curvature gradient hessian ≤ bound * ‖gradient‖ ^ 2) :
    Reduces gradient hessian radius bound (-t • gradient) := by
  refine .of_gradient stops.nonneg stops.within stops.before ?_
  rcases stops.stops with boundary | minimizer
  · rw [boundary]
    exact min_le_left _ _
  · refine (min_le_right _ _).trans ?_
    rw [div_le_iff₀ bound_pos]
    rcases (norm_nonneg gradient).eq_or_lt with zero | gradient_pos
    · rw [← zero, mul_zero, zero_mul]
    · refine le_of_mul_le_mul_right ?_ gradient_pos
      calc ‖gradient‖ * ‖gradient‖
          = t * curvature gradient hessian := by rw [minimizer, sq]
        _ ≤ t * (bound * ‖gradient‖ ^ 2) := mul_le_mul_of_nonneg_left curvature_le stops.nonneg
        _ = t * ‖gradient‖ * bound * ‖gradient‖ := by ring

theorem modelReduction_le {s : ℝ} (s_nonneg : 0 ≤ s) (s_within : s * ‖gradient‖ ≤ radius) :
    modelReduction gradient hessian (-s • gradient) ≤
      modelReduction gradient hessian (-t • gradient) := by
  by_cases zero : gradient = 0
  · rw [zero, smul_zero, smul_zero]
  · have gradient_pos : 0 < ‖gradient‖ := norm_pos_iff.mpr zero
    rcases stops.stops with boundary | minimizer
    · have s_le : s ≤ t := le_of_mul_le_mul_right (s_within.trans boundary.ge) gradient_pos
      exact modelReduction_ray_mono s_nonneg s_le stops.before
    · have curvature_pos : 0 < curvature gradient hessian := by
        refine lt_of_mul_lt_mul_left ?_ stops.nonneg
        rw [mul_zero, minimizer]
        positivity
      -- The reduction lacks half the curvature times the squared distance to the minimizer.
      have square : modelReduction gradient hessian (-t • gradient) -
          modelReduction gradient hessian (-s • gradient) =
            (t - s) ^ 2 / 2 * curvature gradient hessian := by
        rw [modelReduction_gradient, modelReduction_gradient, ← minimizer]
        ring
      have gap : 0 ≤ (t - s) ^ 2 / 2 * curvature gradient hessian := by positivity
      linarith

end Stops

theorem cauchyPoint_reduces (radius_pos : 0 < radius) (bound_pos : 0 < bound)
    (curvature_le : curvature gradient hessian ≤ bound * ‖gradient‖ ^ 2) :
    ∃ step, cauchyPoint gradient hessian radius = .ok step ∧
      Reduces gradient hessian radius bound step := by
  obtain ⟨t, stops, step_eq⟩ := exists_cauchyPoint radius_pos gradient hessian
  exact ⟨-t • gradient, step_eq, stops.reduces bound_pos curvature_le⟩

/-- The Cauchy point is a point on the ray of steepest descent within the ball, and none of the
others reduces the model more; so it reduces it by at least half the gradient norm times the
distance to the boundary or to the minimizer under the greatest curvature. -/
theorem cauchyPoint_minimizes (radius_pos : 0 < radius) (gradient : Vector ℝ n)
    (hessian : SquareMatrix ℝ n) :
    ∃ t : ℝ, 0 ≤ t ∧ cauchyPoint gradient hessian radius = .ok (-t • gradient) ∧
      norm (-t • gradient) ≤ radius ∧
      (∀ s : ℝ, 0 ≤ s → s * norm gradient ≤ radius →
        modelReduction gradient hessian (-s • gradient) ≤
          modelReduction gradient hessian (-t • gradient)) ∧
      ∀ bound, 0 < bound → |curvature gradient hessian| ≤ bound * norm gradient ^ 2 →
        1 / 2 * norm gradient * min radius (norm gradient / bound) ≤
          modelReduction gradient hessian (-t • gradient) := by
  obtain ⟨t, stops, step_eq⟩ := exists_cauchyPoint radius_pos gradient hessian
  refine ⟨t, stops.nonneg, step_eq, stops.norm_le, fun _ => stops.modelReduction_le, ?_⟩
  intro bound bound_pos curvature_le
  have reduces := stops.reduces bound_pos ((le_abs_self _).trans curvature_le)
  refine le_trans (le_of_eq ?_) reduces.le_reduction
  rw [norm_eq_norm]
  ring

theorem cauchyPoint_minimizes_clipped :
    (0 : ℝ) < 1 ∧ ∃ t : ℝ, 0 ≤ t ∧
      cauchyPoint #v[(3 : ℝ), 4] #v[#v[1, 2], #v[-2, 1]] 1 = .ok (-t • #v[3, 4]) ∧
      modelReduction #v[(3 : ℝ), 4] #v[#v[1, 2], #v[-2, 1]] (-(1 / 10 : ℝ) • #v[3, 4]) ≤
        modelReduction #v[3, 4] #v[#v[1, 2], #v[-2, 1]] (-t • #v[3, 4]) ∧
      5 / 2 ≤ modelReduction #v[(3 : ℝ), 4] #v[#v[1, 2], #v[-2, 1]] (-t • #v[3, 4]) := by
  have length : norm (#v[3, 4] : Vector ℝ 2) = 5 := by
    rw [Descent.norm, Scalar.sqrt_real, Real.sqrt_eq_iff_mul_self_eq_of_pos (by norm_num)]
    norm_num [dot_eq_sum]
  have form : curvature (#v[3, 4] : Vector ℝ 2) #v[#v[1, 2], #v[-2, 1]] = 25 := by
    norm_num [curvature, dot_eq_sum]
  obtain ⟨t, nonneg, step_eq, -, least, enough⟩ :=
    cauchyPoint_minimizes one_pos #v[(3 : ℝ), 4] #v[#v[1, 2], #v[-2, 1]]
  refine ⟨one_pos, t, nonneg, step_eq, least (1 / 10) (by norm_num) ?_, ?_⟩
  · rw [length]
    norm_num
  · refine le_trans ?_ (enough 1 one_pos (by rw [form, length]; norm_num))
    rw [length]
    norm_num

end Descent.Subproblem
