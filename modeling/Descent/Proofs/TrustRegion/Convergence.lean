import Descent.Proofs.Square
import Descent.Proofs.TrustRegion.Progress
/-!
# Convergence within a trust region

Every iteration lowers a potential: the decreases that the value still allows, each weighed
with the shrinkings that a radius takes to become safe, and the shrinkings that the present
radius takes.  So the gradient comes below the threshold after finitely many iterations.
-/

namespace Descent.TrustRegion

open RunM

variable {n : Nat} {name : String} {value : Vector ℝ n → ℝ} {gradient : Vector ℝ n → Vector ℝ n}
  {hessian : Vector ℝ n → SquareMatrix ℝ n} {L β : ℝ} {c : Config ℝ}

section Shrinkings

variable {target radius : ℝ}

/-- How often a radius has to shrink before it is at most a target. -/
noncomputable def Config.shrinkings (c : Config ℝ) (target radius : ℝ) : Nat :=
  sInf {k | c.shrinkFactor ^ k * radius ≤ target}

noncomputable def Config.level (c : Config ℝ) (bound radius : ℝ) : Nat :=
  sInf {k | c.shrinkFactor ^ k * radius ≤ c.safeRadius bound}

theorem shrinkings_le {k : Nat} (small : c.shrinkFactor ^ k * radius ≤ target) :
    c.shrinkings target radius ≤ k := Nat.sInf_le small

theorem shrinkings_reach (inRange : c.InRange) (target_pos : 0 < target) (radius_pos : 0 < radius) :
    c.shrinkFactor ^ c.shrinkings target radius * radius ≤ target := by
  obtain ⟨k, small⟩ :=
    exists_pow_lt_of_lt_one (div_pos target_pos radius_pos) inRange.shrinkFactor_lt
  have reached : {k | c.shrinkFactor ^ k * radius ≤ target}.Nonempty :=
    ⟨k, ((lt_div_iff₀ radius_pos).mp small).le⟩
  exact Nat.sInf_mem reached

theorem shrinkings_mono (inRange : c.InRange) (target_pos : 0 < target)
    (radius_pos : 0 < radius) {greater : ℝ} (le : radius ≤ greater) :
    c.shrinkings target radius ≤ c.shrinkings target greater := by
  refine shrinkings_le (le_trans ?_ (shrinkings_reach inRange target_pos (radius_pos.trans_le le)))
  exact mul_le_mul_of_nonneg_left le (pow_pos inRange.shrinkFactor_pos _).le

/-- Shrinking a radius above the target brings it one step nearer. -/
theorem shrinkings_shrunk_lt (inRange : c.InRange) (least_le : c.leastRadius ≤ target)
    (large : target < radius) :
    c.shrinkings target (max (c.shrinkFactor * radius) c.leastRadius) <
      c.shrinkings target radius := by
  have target_pos : 0 < target := inRange.least_pos.trans_le least_le
  have reach := shrinkings_reach inRange target_pos (target_pos.trans large)
  cases count : c.shrinkings target radius with
  | zero =>
      rw [count, pow_zero, one_mul] at reach
      exact absurd reach (not_le.mpr large)
  | succ k =>
      rw [count, pow_succ, mul_assoc] at reach
      refine Nat.lt_succ_of_le (shrinkings_le ?_)
      rw [mul_max_of_nonneg _ _ (pow_pos inRange.shrinkFactor_pos k).le]
      refine max_le reach (le_trans ?_ least_le)
      exact mul_le_of_le_one_left inRange.least_pos.le
        (pow_le_one₀ inRange.shrinkFactor_pos.le inRange.shrinkFactor_lt.le)

end Shrinkings

section Potential

variable {x y : Vector ℝ n} {radius radius' : ℝ}

noncomputable def Config.allowance (c : Config ℝ) (value : Vector ℝ n → ℝ) (x : Vector ℝ n) : Nat :=
  ⌊(value x - sInf (Set.range value)) / c.gain⌋₊

/-- A bound on the iterations from a point with a radius. -/
noncomputable def Config.potential (c : Config ℝ) (bound : ℝ) (value : Vector ℝ n → ℝ)
    (x : Vector ℝ n) (radius : ℝ) : Nat :=
  (c.level bound c.greatestRadius + 1) * c.allowance value x + c.level bound radius

theorem gain_pos (inRange : c.InRange) : 0 < c.gain :=
  mul_pos (shrinkThreshold_pos inRange)
    (mul_pos (mul_pos (by norm_num) (threshold_pos inRange)) inRange.least_pos)

theorem allowance_mono (inRange : c.InRange) (le : value y ≤ value x) :
    c.allowance value y ≤ c.allowance value x :=
  Nat.floor_le_floor (div_le_div_of_nonneg_right (by linarith) (gain_pos inRange).le)

theorem allowance_lt (inRange : c.InRange) (below : BddBelow (Set.range value))
    (falls : value y ≤ value x - c.gain) : c.allowance value y < c.allowance value x := by
  have nonneg : 0 ≤ (value y - sInf (Set.range value)) / c.gain :=
    div_nonneg (sub_nonneg.mpr (csInf_le below ⟨y, rfl⟩)) (gain_pos inRange).le
  have step : (value y - sInf (Set.range value)) / c.gain + 1 ≤
      (value x - sInf (Set.range value)) / c.gain := by
    rw [div_add_one (gain_pos inRange).ne']
    exact div_le_div_of_nonneg_right (by linarith) (gain_pos inRange).le
  unfold Config.allowance
  rw [Nat.lt_iff_add_one_le, ← Nat.floor_add_one nonneg]
  exact Nat.floor_le_floor step

theorem potential_lt {bound : ℝ} (inRange : c.InRange) (below : BddBelow (Set.range value))
    (least_safe : c.leastRadius ≤ c.safeRadius bound)
    (radius'_mem : radius' ∈ Set.Icc c.leastRadius c.greatestRadius)
    (gains : Gains value c bound x y radius radius') :
    c.potential bound value y radius' < c.potential bound value x radius := by
  unfold Config.potential
  cases gains with
  | shrinks large radius_eq le =>
      have fewer := Nat.mul_le_mul_left (c.level bound c.greatestRadius + 1)
        (allowance_mono inRange le)
      have lower : c.level bound (max (c.shrinkFactor * radius) c.leastRadius) <
          c.level bound radius := shrinkings_shrunk_lt inRange least_safe large
      rw [radius_eq]
      omega
  | falls falls =>
      -- The radius may have grown, but the weight covers the level of the greatest one.
      have fewer := Nat.mul_le_mul_left (c.level bound c.greatestRadius + 1)
        (Nat.succ_le_of_lt (allowance_lt inRange below falls))
      have level_le : c.level bound radius' ≤ c.level bound c.greatestRadius :=
        shrinkings_mono inRange (inRange.least_pos.trans_le least_safe)
          (inRange.least_pos.trans_le radius'_mem.1) radius'_mem.2
      rw [Nat.mul_succ] at fewer
      omega

end Potential

section Run

variable {options : RunOptions}

variable (name) in
/-- The loop ends at a point below the threshold, after no more iterations than the potential
at its start. -/
theorem iterate_converges (tame : Tame value gradient hessian L β) (inRange : c.InRange)
    (least_safe : c.leastRadius ≤ c.safeRadius (L + β)) (positive : options.isDebug = true → 0 < n)
    (limit : Nat) {remaining : Nat} {p : Point ℝ n} {r : Run (State ℝ) ℝ n}
    (stands : Stands value gradient hessian c p r)
    (enough : c.potential (L + β) value p.location r.state.radius < remaining) :
    ∃ q r', outcome (iterate (.ofFunctions name value gradient hessian) c options limit remaining p)
        r = (.ok (q, .converged), r') ∧
      r'.state.iterations ≤
        r.state.iterations + c.potential (L + β) value p.location r.state.radius := by
  induction remaining generalizing p r with
  | zero => exact absurd enough (Nat.not_lt_zero _)
  | succ remaining ih =>
      obtain ⟨r₁, refreshed, radius_eq, iterations_eq⟩ := refresh_eq name value options (r := r)
        stands.model_eq fun debug => SquareMatrix.requireSymmetric_eq_ok (positive debug)
          (tame.symmetric p.location) (by norm_num [SquareMatrix.symmetryTolerance])
      unfold iterate
      rw [outcome_bind_of_ok refreshed]
      by_cases steep : c.threshold < ‖gradient p.location‖
      · have stands₁ : Stands value gradient hessian c p r₁ :=
          ⟨stands.value_eq, stands.model_eq, radius_eq ▸ stands.radius_mem⟩
        obtain ⟨q, r₂, advanced, stands₂, counted, gains⟩ :=
          advance_gains name options tame.smooth inRange least_safe stands₁ steep
        have lower := potential_lt inRange tame.below least_safe stands₂.radius_mem gains
        rw [radius_eq] at lower
        obtain ⟨q', r', ran, bound⟩ := ih stands₂ (by omega)
        have notConverged : isConverged (norm (Model.at gradient hessian p.location).gradient)
            c.gradientTolerance = false := isConverged_eq_false steep
        refine ⟨q', r', ?_, by omega⟩
        rw [notConverged, if_neg Bool.false_ne_true, outcome_bind_of_ok advanced]
        exact ran
      · have converged : isConverged (norm (Model.at gradient hessian p.location).gradient)
            c.gradientTolerance = true := isConverged_eq_true (not_lt.mp steep)
        refine ⟨⟨p.location, p.value, some (.at gradient hessian p.location)⟩, r₁, ?_, by omega⟩
        rw [converged, if_pos rfl]
        rfl

/-- From every start the run converges, after a number of iterations that depends on the start
only, whatever is asked of it besides: the budget must merely be larger, and in debug mode the
gradient must pass the check of the differences. -/
theorem optimize_converges (tame : Tame value gradient hessian L β) (valid : c.check = .ok ())
    (least_safe : c.leastRadius ≤
      (1 - c.shrinkThreshold) * max c.gradientTolerance 1e-12 / (L + β))
    (name : String) (x : Vector ℝ n) :
    ∃ N, ∀ (options : RunOptions) (dimension : Dimension) (s : State ℝ) (start : Tensor ℝ)
      (limit : Nat),
      checkRequest dimension c.iterationCap options.budget start = .ok (x, limit) →
      (options.isDebug = true → 0 < n ∧
        Id.run ((Objective.ofFunctions name value gradient hessian).requireConsistent x
          Objective.defaultTolerance).run = .ok ()) →
      N < limit →
      ∃ result, (Id.run (optimize (.ofFunctions name value gradient hessian) c dimension s start
          options)).result = .ok result ∧
        result.status = .converged ∧ result.iterations ≤ N := by
  have inRange := Config.inRange valid
  refine ⟨c.potential (L + β) value x c.initialRadius, ?_⟩
  intro options dimension s start limit accepted checks budget
  obtain ⟨r, departed, radius_eq, iterations_eq⟩ := depart_eq name value gradient hessian c options
    (r := ⟨s, x, #[], #[]⟩) fun debug => (checks debug).2
  have stands : Stands value gradient hessian c ⟨x, value x, none⟩ r :=
    ⟨rfl, by simp, radius_eq ▸ ⟨inRange.least_le_initial, inRange.initial_le_greatest⟩⟩
  obtain ⟨q, r', ran, bound⟩ := iterate_converges name tame inRange least_safe
    (fun debug => (checks debug).1) limit stands (radius_eq.symm ▸ budget)
  obtain ⟨result, r'', finished, ending_eq, count_eq⟩ :=
    finish_eq name value gradient hessian (r := r') (q := q) .converged
  rw [radius_eq, iterations_eq, Nat.zero_add] at bound
  refine ⟨result, ?_, ?_, count_eq ▸ bound⟩
  · unfold optimize
    rw [Call.make_result accepted]
    unfold run
    rw [outcome_bind_of_ok departed, outcome_bind_of_ok ran, finished]
  · rw [RunResult.status, ending_eq]
    rfl

end Run

section Square

theorem tame_square :
    Tame Square.value Square.gradient Square.hessian 2 2 where
  below := ⟨0, by rintro _ ⟨x, rfl⟩; exact dot_self_nonneg x⟩
  linear x y := by
    have error : dot y y - dot x x - dot ((2 : ℝ) • x) (y - x) = ‖y - x‖ ^ 2 := by
      rw [dot_self_about x y]
      ring
    rw [Square.gradient_eq, Square.value, Square.value, error, norm_eq_norm,
      abs_of_nonneg (sq_nonneg _)]
    norm_num
  symmetric _ := rfl
  form_le _ v := by
    have double : SquareMatrix.mulVec #v[#v[1 + 1]] v = (2 : ℝ) • v := by
      ext i hi
      obtain rfl : i = 0 := by omega
      simp [dot_eq_sum, one_add_one_eq_two]
    rw [Square.hessian, double, dot_smul_right, Subproblem.dot_self_eq, norm_eq_norm,
      abs_of_nonneg (by positivity)]
  L_nonneg := by norm_num
  β_nonneg := by norm_num
  sum_pos := by norm_num

theorem optimize_converges_square :
    ∃ N : Nat, ∀ k : Nat, N < k →
      ∃ result, (Id.run (optimize Square.objective .defaults (.whole 1) (.create .defaults)
          (.ofVector #v[(1 : ℝ)]) { budget := some k })).result = .ok result ∧
        result.status = .converged ∧ result.iterations ≤ N := by
  obtain ⟨N, converges⟩ := optimize_converges tame_square Config.defaults_check
    (by norm_num [Config.defaults, defaultGradientTolerance]) "square" #v[1]
  refine ⟨N, fun k budget => ?_⟩
  have resolved : resolveBudget (some (k : Int)) (Config.defaults : Config ℝ).iterationCap =
      (.ok (k : Int) : Except (Error ℝ) Int) := by
    rw [resolveBudget, if_neg (by omega)]
  exact converges _ _ _ _ k (checkRequest_ofVector (fun _ => rfl) resolved) (by simp) budget

end Square

end Descent.TrustRegion
