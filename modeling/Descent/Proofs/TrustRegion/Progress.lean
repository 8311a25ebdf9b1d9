import Descent.Proofs.Consistency
import Descent.Proofs.Subproblem.Dogleg
import Descent.Proofs.TrustRegion.Iteration
/-!
# Progress within a trust region

Far from a stationary point a small region is trusted: the model errs too little there to
spoil the ratio.  So an iteration either shrinks a large radius or decreases the value by a
fixed amount.
-/

namespace Descent.TrustRegion

open RunM Subproblem

variable {n : Nat}

/-- A function that is bounded below and whose linear models err by at most `L / 2` times the
squared distance, with symmetric Hessians whose forms are at most `β`. -/
structure Tame (value : Vector ℝ n → ℝ) (gradient : Vector ℝ n → Vector ℝ n)
    (hessian : Vector ℝ n → SquareMatrix ℝ n) (L β : ℝ) : Prop where
  below : BddBelow (Set.range value)
  linear : ∀ x y, |value y - value x - dot (gradient x) (y - x)| ≤ L / 2 * norm (y - x) ^ 2
  symmetric : ∀ x, (hessian x).transpose = hessian x
  form_le : ∀ x v, |dot v ((hessian x).mulVec v)| ≤ β * norm v ^ 2
  L_nonneg : 0 ≤ L
  β_nonneg : 0 ≤ β
  sum_pos : 0 < L + β

/-- A function whose linear models err by at most `L / 2` times the squared distance, with
symmetric Hessians whose forms are at most `β`.  It may be unbounded below. -/
structure Smooth (value : Vector ℝ n → ℝ) (gradient : Vector ℝ n → Vector ℝ n)
    (hessian : Vector ℝ n → SquareMatrix ℝ n) (L β : ℝ) : Prop where
  linear : ∀ x y, |value y - value x - dot (gradient x) (y - x)| ≤ L / 2 * norm (y - x) ^ 2
  symmetric : ∀ x, (hessian x).transpose = hessian x
  form_le : ∀ x v, |dot v ((hessian x).mulVec v)| ≤ β * norm v ^ 2
  L_nonneg : 0 ≤ L
  β_nonneg : 0 ≤ β
  sum_pos : 0 < L + β

theorem Tame.smooth {value : Vector ℝ n → ℝ} {gradient : Vector ℝ n → Vector ℝ n}
    {hessian : Vector ℝ n → SquareMatrix ℝ n} {L β : ℝ}
    (tame : Tame value gradient hessian L β) : Smooth value gradient hessian L β :=
  ⟨tame.linear, tame.symmetric, tame.form_le, tame.L_nonneg, tame.β_nonneg, tame.sum_pos⟩

structure Config.InRange (c : Config ℝ) : Prop where
  least_pos : 0 < c.leastRadius
  least_le_initial : c.leastRadius ≤ c.initialRadius
  initial_le_greatest : c.initialRadius ≤ c.greatestRadius
  acceptance_nonneg : 0 ≤ c.acceptance
  acceptance_lt : c.acceptance < c.shrinkThreshold
  shrinkThreshold_lt : c.shrinkThreshold < 1
  shrinkFactor_pos : 0 < c.shrinkFactor
  shrinkFactor_lt : c.shrinkFactor < 1
  growFactor_gt : 1 < c.growFactor
  tolerance_pos : 0 < c.gradientTolerance

theorem Config.inRange {c : Config ℝ} (valid : c.check = .ok ()) : c.InRange := by
  unfold Config.check at valid
  split_ifs at valid with radii initial ratios shrink grow tolerance cap
  obtain ⟨acceptance_nonneg, acceptance_lt, shrink_lt_grow, grow_lt⟩ := ratios
  exact {
    least_pos := radii.1
    least_le_initial := initial.1
    initial_le_greatest := initial.2
    acceptance_nonneg := acceptance_nonneg
    acceptance_lt := acceptance_lt
    shrinkThreshold_lt := shrink_lt_grow.trans grow_lt
    shrinkFactor_pos := shrink.1
    shrinkFactor_lt := shrink.2
    growFactor_gt := not_le.mp grow
    tolerance_pos := not_le.mp tolerance }

theorem Config.defaults_check : (Config.defaults : Config ℝ).check = .ok () := by
  unfold Config.check Config.defaults defaultGradientTolerance defaultIterationCap
  norm_num

noncomputable def Config.threshold (c : Config ℝ) : ℝ := max c.gradientTolerance 1e-12

/-- Regions of at most this radius are trusted where the gradient is above the threshold. -/
noncomputable def Config.safeRadius (c : Config ℝ) (bound : ℝ) : ℝ :=
  (1 - c.shrinkThreshold) * c.threshold / bound

/-- The least decrease of an iteration that keeps the radius. -/
noncomputable def Config.gain (c : Config ℝ) : ℝ :=
  c.shrinkThreshold * (0.5 * c.threshold * c.leastRadius)

theorem isConverged_eq_false {c : Config ℝ} {g : Vector ℝ n}
    (steep : c.threshold < ‖g‖) : isConverged (norm g) c.gradientTolerance = false := by
  rw [isConverged_real, norm_eq_norm]
  exact decide_eq_false (not_le.mpr steep)

theorem isConverged_eq_true {c : Config ℝ} {g : Vector ℝ n}
    (flat : ‖g‖ ≤ c.threshold) : isConverged (norm g) c.gradientTolerance = true := by
  rw [isConverged_real, norm_eq_norm]
  exact decide_eq_true flat

section Trial

variable {value : Vector ℝ n → ℝ} {gradient : Vector ℝ n → Vector ℝ n}
  {hessian : Vector ℝ n → SquareMatrix ℝ n} {L β : ℝ} {c : Config ℝ}

/-- The quadratic model errs by at most half the sum of the two constants. -/
theorem Smooth.abs_error_le (smooth : Smooth value gradient hessian L β) (x s : Vector ℝ n) :
    |value x - value (x + s) - modelReduction (gradient x) (hessian x) s| ≤
      (L + β) / 2 * ‖s‖ ^ 2 := by
  have linear := smooth.linear x (x + s)
  have form := smooth.form_le x s
  rw [add_sub_cancel_left, norm_eq_norm, abs_le] at linear
  rw [norm_eq_norm, abs_le] at form
  simp only [modelReduction, abs_le]
  constructor <;> linarith [linear.1, linear.2, form.1, form.2]

theorem Smooth.curvature_le (smooth : Smooth value gradient hessian L β) (x : Vector ℝ n) :
    curvature (gradient x) (hessian x) ≤ (L + β) * ‖gradient x‖ ^ 2 := by
  have form := (le_abs_self _).trans (smooth.form_le x (gradient x))
  rw [norm_eq_norm] at form
  refine form.trans (mul_le_mul_of_nonneg_right ?_ (sq_nonneg _))
  linarith [smooth.L_nonneg]

variable {x : Vector ℝ n} {p : Point ℝ n} {trial : TrialStep ℝ n} {radius : ℝ}

/-- A trial step from `x`, where the gradient is above the threshold, with enough predicted
decrease. -/
structure Promises (gradient : Vector ℝ n → Vector ℝ n) (hessian : Vector ℝ n → SquareMatrix ℝ n)
    (c : Config ℝ) (bound radius : ℝ) (x : Vector ℝ n) (trial : TrialStep ℝ n) : Prop where
  bound_pos : 0 < bound
  radius_pos : 0 < radius
  steep : c.threshold < ‖gradient x‖
  predicted_eq : trial.predictedReduction = modelReduction (gradient x) (hessian x) trial.step
  reduces : Reduces (gradient x) (hessian x) radius bound trial.step

theorem threshold_pos (inRange : c.InRange) : 0 < c.threshold :=
  lt_max_of_lt_left inRange.tolerance_pos

theorem shrinkThreshold_pos (inRange : c.InRange) : 0 < c.shrinkThreshold :=
  inRange.acceptance_nonneg.trans_lt inRange.acceptance_lt

theorem exists_promises (smooth : Smooth value gradient hessian L β) (inRange : c.InRange)
    (radius_pos : 0 < radius) (steep : c.threshold < ‖gradient x‖) :
    ∃ trial, Subproblem.solve c.method (gradient x) (hessian x) radius = .ok trial ∧
      Promises gradient hessian c (L + β) radius x trial := by
  have nonzero : gradient x ≠ 0 := norm_pos_iff.mp ((threshold_pos inRange).trans steep)
  obtain ⟨trial, solved, predicted_eq, reduces⟩ := solve_reduces c.method (smooth.symmetric x)
    nonzero radius_pos smooth.sum_pos (smooth.curvature_le x)
  exact ⟨trial, solved, smooth.sum_pos, radius_pos, steep, predicted_eq, reduces⟩

namespace Promises

theorem le_predicted (promises : Promises gradient hessian c (L + β) radius x trial) :
    ‖gradient x‖ / 2 * min radius (‖gradient x‖ / (L + β)) ≤ trial.predictedReduction := by
  rw [promises.predicted_eq]
  exact promises.reduces.le_reduction

theorem predicted_pos (inRange : c.InRange)
    (promises : Promises gradient hessian c (L + β) radius x trial) :
    0 < trial.predictedReduction := by
  have gradient_pos : 0 < ‖gradient x‖ := (threshold_pos inRange).trans promises.steep
  refine lt_of_lt_of_le ?_ promises.le_predicted
  exact mul_pos (half_pos gradient_pos)
    (lt_min promises.radius_pos (div_pos gradient_pos promises.bound_pos))

theorem ratio_mul (inRange : c.InRange)
    (promises : Promises gradient hessian c (L + β) radius p.location trial)
    (value_eq : p.value = value p.location) :
    trialRatio value p trial * trial.predictedReduction =
      value p.location - value (p.location + trial.step) := by
  have predicted_pos := promises.predicted_pos inRange
  rw [trialRatio, ratio, if_pos ⟨predicted_pos, rfl⟩, div_mul_cancel₀ _ predicted_pos.ne', value_eq]

/-- In a small region the ratio is above the threshold of shrinking. -/
theorem shrinkThreshold_lt (smooth : Smooth value gradient hessian L β) (inRange : c.InRange)
    (promises : Promises gradient hessian c (L + β) radius p.location trial)
    (value_eq : p.value = value p.location) (small : radius ≤ c.safeRadius (L + β)) :
    c.shrinkThreshold < trialRatio value p trial := by
  have gap_pos : 0 < 1 - c.shrinkThreshold := sub_pos.mpr inRange.shrinkThreshold_lt
  have scaled : (L + β) * radius < (1 - c.shrinkThreshold) * ‖gradient p.location‖ := by
    rw [Config.safeRadius, le_div_iff₀ promises.bound_pos, mul_comm] at small
    exact small.trans_lt (mul_lt_mul_of_pos_left promises.steep gap_pos)
  have within : radius ≤ ‖gradient p.location‖ / (L + β) := by
    rw [le_div_iff₀ promises.bound_pos, mul_comm]
    nlinarith [mul_nonneg (shrinkThreshold_pos inRange).le (norm_nonneg (gradient p.location))]
  have predicted : ‖gradient p.location‖ / 2 * radius ≤ trial.predictedReduction := by
    have le_predicted := promises.le_predicted
    rwa [min_eq_left within] at le_predicted
  have error := smooth.abs_error_le p.location trial.step
  rw [← promises.predicted_eq, ← promises.ratio_mul inRange value_eq] at error
  have length : (L + β) / 2 * ‖trial.step‖ ^ 2 ≤ (L + β) / 2 * radius ^ 2 :=
    mul_le_mul_of_nonneg_left
      (pow_le_pow_left₀ (norm_nonneg _) promises.reduces.norm_le 2) (half_pos promises.bound_pos).le
  by_contra low
  have short : (1 - c.shrinkThreshold) * trial.predictedReduction ≤ (L + β) / 2 * radius ^ 2 := by
    have loss := (neg_abs_le _).trans' (neg_le_neg (error.trans length))
    nlinarith [promises.predicted_pos inRange, not_lt.mp low]
  have room := mul_lt_mul_of_pos_right scaled promises.radius_pos
  nlinarith [mul_le_mul_of_nonneg_left predicted gap_pos.le]

theorem safeRadius_lt (smooth : Smooth value gradient hessian L β) (inRange : c.InRange)
    (promises : Promises gradient hessian c (L + β) radius p.location trial)
    (value_eq : p.value = value p.location) (low : trialRatio value p trial < c.shrinkThreshold) :
    c.safeRadius (L + β) < radius := by
  by_contra small
  have high := promises.shrinkThreshold_lt smooth inRange value_eq (not_lt.mp small)
  exact lt_asymm low high

theorem value_le (inRange : c.InRange)
    (promises : Promises gradient hessian c (L + β) radius p.location trial)
    (value_eq : p.value = value p.location) (accepted : c.acceptance < trialRatio value p trial) :
    value (p.location + trial.step) ≤ value p.location := by
  have actual := promises.ratio_mul inRange value_eq
  have ratio_nonneg := inRange.acceptance_nonneg.trans accepted.le
  linarith [mul_nonneg ratio_nonneg (promises.predicted_pos inRange).le]

/-- A step whose ratio is not below the threshold of shrinking lowers the value by a fixed
amount, if the radius is at least the least one and that is safe. -/
theorem value_le_sub (inRange : c.InRange)
    (promises : Promises gradient hessian c (L + β) radius p.location trial)
    (value_eq : p.value = value p.location) (safe : c.leastRadius ≤ c.safeRadius (L + β))
    (least_le : c.leastRadius ≤ radius) (kept : c.shrinkThreshold ≤ trialRatio value p trial) :
    value (p.location + trial.step) ≤ value p.location - c.gain := by
  have actual := promises.ratio_mul inRange value_eq
  have within : c.leastRadius ≤ ‖gradient p.location‖ / (L + β) := by
    refine safe.trans (div_le_div_of_nonneg_right ?_ promises.bound_pos.le)
    nlinarith [threshold_pos inRange, shrinkThreshold_pos inRange, promises.steep]
  have predicted : 0.5 * c.threshold * c.leastRadius ≤ trial.predictedReduction :=
    calc 0.5 * c.threshold * c.leastRadius
        ≤ ‖gradient p.location‖ / 2 * min radius (‖gradient p.location‖ / (L + β)) :=
          mul_le_mul (by norm_num; linarith [promises.steep]) (le_min least_le within)
            inRange.least_pos.le (by positivity)
      _ ≤ trial.predictedReduction := promises.le_predicted
  have share : c.gain ≤ trialRatio value p trial * trial.predictedReduction :=
    mul_le_mul kept predicted
      (mul_nonneg (mul_nonneg (by norm_num) (threshold_pos inRange).le) inRange.least_pos.le)
      ((shrinkThreshold_pos inRange).le.trans kept)
  linarith

end Promises

end Trial

section Radius

variable {c : Config ℝ} {radius ratio : ℝ} {onBoundary : Bool}

theorem nextRadius_of_lt (low : ratio < c.shrinkThreshold) :
    nextRadius c radius ratio onBoundary = max (c.shrinkFactor * radius) c.leastRadius := by
  rw [nextRadius, if_pos low, Scalar.larger_real]

theorem nextRadius_pos (inRange : c.InRange) (radius_pos : 0 < radius) :
    0 < nextRadius c radius ratio onBoundary := by
  have greatest_pos : 0 < c.greatestRadius :=
    inRange.least_pos.trans_le (inRange.least_le_initial.trans inRange.initial_le_greatest)
  unfold nextRadius
  rw [Scalar.larger_real, Scalar.smaller_real]
  split_ifs
  · exact lt_max_of_lt_right inRange.least_pos
  · exact lt_min (mul_pos (zero_lt_one.trans inRange.growFactor_gt) radius_pos) greatest_pos
  · exact radius_pos

theorem nextRadius_mem (inRange : c.InRange)
    (within : radius ∈ Set.Icc c.leastRadius c.greatestRadius) :
    nextRadius c radius ratio onBoundary ∈ Set.Icc c.leastRadius c.greatestRadius := by
  obtain ⟨least_le, le_greatest⟩ := within
  have radius_pos : 0 < radius := inRange.least_pos.trans_le least_le
  unfold nextRadius
  rw [Scalar.larger_real, Scalar.smaller_real]
  split_ifs
  · have shorter : c.shrinkFactor * radius ≤ radius :=
      mul_le_of_le_one_left radius_pos.le inRange.shrinkFactor_lt.le
    exact ⟨le_max_right _ _, max_le (shorter.trans le_greatest) (least_le.trans le_greatest)⟩
  · have longer : radius ≤ c.growFactor * radius :=
      le_mul_of_one_le_left radius_pos.le inRange.growFactor_gt.le
    exact ⟨le_min (least_le.trans longer) (least_le.trans le_greatest), min_le_right _ _⟩
  · exact ⟨least_le, le_greatest⟩

theorem le_nextRadius (inRange : c.InRange)
    (within : radius ∈ Set.Icc c.leastRadius c.greatestRadius)
    (kept : ¬ ratio < c.shrinkThreshold) : radius ≤ nextRadius c radius ratio onBoundary := by
  have radius_pos : 0 < radius := inRange.least_pos.trans_le within.1
  rw [nextRadius, if_neg kept, Scalar.smaller_real]
  split_ifs
  · exact le_min (le_mul_of_one_le_left radius_pos.le inRange.growFactor_gt.le) within.2
  · exact le_rfl

end Radius

section Step

variable {name : String} {value : Vector ℝ n → ℝ} {gradient : Vector ℝ n → Vector ℝ n}
  {hessian : Vector ℝ n → SquareMatrix ℝ n} {L β : ℝ} {c : Config ℝ} {options : RunOptions}
  {p : Point ℝ n} {r : Run (State ℝ) ℝ n}

structure Stands (value : Vector ℝ n → ℝ) (gradient : Vector ℝ n → Vector ℝ n)
    (hessian : Vector ℝ n → SquareMatrix ℝ n) (c : Config ℝ) (p : Point ℝ n)
    (r : Run (State ℝ) ℝ n) : Prop where
  value_eq : p.value = value p.location
  model_eq : ∀ model ∈ p.model, model = .at gradient hessian p.location
  radius_mem : r.state.radius ∈ Set.Icc c.leastRadius c.greatestRadius

/-- What an iteration achieves: a radius that is not safe shrinks and the value does not rise,
or the value falls by a fixed amount. -/
inductive Gains (value : Vector ℝ n → ℝ) (c : Config ℝ) (bound : ℝ) (x y : Vector ℝ n)
    (radius radius' : ℝ) : Prop
  | shrinks : c.safeRadius bound < radius →
      radius' = max (c.shrinkFactor * radius) c.leastRadius → value y ≤ value x →
      Gains value c bound x y radius radius'
  | falls : value y ≤ value x - c.gain → Gains value c bound x y radius radius'

variable (name options) in
/-- An iteration above the threshold gains, and never ends the run. -/
theorem advance_gains (smooth : Smooth value gradient hessian L β) (inRange : c.InRange)
    (safe : c.leastRadius ≤ c.safeRadius (L + β)) (stands : Stands value gradient hessian c p r)
    (steep : c.threshold < ‖gradient p.location‖) :
    ∃ q r', outcome (advance (.ofFunctions name value gradient hessian) c options p
        (.at gradient hessian p.location)) r = (.ok (.moved q), r') ∧
      Stands value gradient hessian c q r' ∧
      r'.state.iterations = r.state.iterations + 1 ∧
      Gains value c (L + β) p.location q.location r.state.radius r'.state.radius := by
  have radius_pos : 0 < r.state.radius := inRange.least_pos.trans_le stands.radius_mem.1
  obtain ⟨trial, solved, promises⟩ := exists_promises smooth inRange radius_pos steep
  have large : trialRatio value p trial < c.shrinkThreshold →
      c.safeRadius (L + β) < r.state.radius :=
    promises.safeRadius_lt smooth inRange stands.value_eq
  obtain ⟨r', advanced, counted, _⟩ :=
    advance_eq name value gradient hessian options (.at gradient hessian p.location) solved
  by_cases accepted : c.acceptance < trialRatio value p trial
  · rw [if_pos accepted] at advanced
    refine ⟨_, r', advanced, ⟨rfl, by simp, ?_⟩, counted.iterations, ?_⟩
    · rw [counted.radius]
      exact nextRadius_mem inRange stands.radius_mem
    · by_cases low : trialRatio value p trial < c.shrinkThreshold
      · refine .shrinks (large low) ?_ (promises.value_le inRange stands.value_eq accepted)
        rw [counted.radius, nextRadius_of_lt low]
      · exact .falls (promises.value_le_sub inRange stands.value_eq safe stands.radius_mem.1
          (not_lt.mp low))
  · have low : trialRatio value p trial < c.shrinkThreshold :=
      (not_lt.mp accepted).trans_lt inRange.acceptance_lt
    have above : ¬ r.state.radius ≤ c.leastRadius := not_le.mpr (safe.trans_lt (large low))
    rw [if_neg accepted, if_neg above] at advanced
    refine ⟨_, r', advanced, ⟨stands.value_eq, by simp, ?_⟩, counted.iterations, ?_⟩
    · rw [counted.radius]
      exact nextRadius_mem inRange stands.radius_mem
    · refine .shrinks (large low) ?_ le_rfl
      rw [counted.radius, nextRadius_of_lt low]

end Step

end Descent.TrustRegion
