import Descent.Proofs.Curvature.History
import Descent.Proofs.Lbfgs.Iteration
import Descent.Proofs.LineSearch.Phases
import Descent.Proofs.Square
/-!
# The safeguard of a run

Where a function is at most its linear models and a multiple of the squared distance, short
steps along steepest descent decrease it enough.  Backtracking halves its step down to
`2⁻⁵³` before it gives up, so the safeguard succeeds as long as that is short, and no line
search of a run fails.
-/

namespace Descent

namespace Armijo

variable {φ φ' : ℝ → ℝ} {s : Settings ℝ} {start slope : ℝ}

theorem exists_backtrack (shrink_pos : 0 < s.shrink) (shrink_le : s.shrink ≤ 1) {k trials : Nat}
    {step : ℝ} (step_pos : 0 < step) (enough : k < trials)
    (long : leastStep ≤ step * s.shrink ^ k)
    (low : φ (step * s.shrink ^ k) ≤ start + s.decrease * (step * s.shrink ^ k) * slope)
    (evaluations : Nat) :
    ∃ found, backtrack (Ray.ofFunctions φ φ').value s start slope trials step evaluations =
        .ok found ∧
      0 < found.1 ∧ φ found.1 ≤ start + s.decrease * found.1 * slope := by
  have accepted : s.acceptsAt (Ray.ofFunctions φ φ').value start slope (s.shortened step k) := by
    rw [Settings.shortened_eq]
    exact decide_eq_true low
  have exists_accepted : ∃ j, s.acceptsAt (Ray.ofFunctions φ φ').value start slope
      (s.shortened step j) := ⟨k, accepted⟩
  have first_le : Nat.find exists_accepted ≤ k := Nat.find_min' exists_accepted accepted
  have first_accepted := Nat.find_spec exists_accepted
  refine ⟨_, backtrack_of_accepts (fun i less => Nat.find_min exists_accepted less)
    (fun i less => ?_) (first_le.trans_lt enough) first_accepted evaluations, ?_,
    of_decide_eq_true first_accepted⟩
  · rw [Settings.shortened_eq, not_lt]
    exact long.trans (mul_le_mul_of_nonneg_left
      (pow_le_pow_of_le_one shrink_pos.le shrink_le (less.trans_le first_le)) step_pos.le)
  · rw [Settings.shortened_eq]
    exact mul_pos step_pos (pow_pos shrink_pos _)

end Armijo

namespace Lbfgs

open RunM

variable {n : Nat} {value : Vector ℝ n → ℝ} {gradient : Vector ℝ n → Vector ℝ n} {L : ℝ}
  {c : Config ℝ}

section Direction

variable (g : Vector ℝ n)

theorem steepestDescent_eq : steepestDescent g (norm g) = (-(max ‖g‖ 1)⁻¹) • g := by
  rw [steepestDescent, Scalar.larger_real, norm_eq_norm, map_div_eq_smul, smul_neg, neg_smul]

theorem dot_steepestDescent : dot g (steepestDescent g (norm g)) = -(‖g‖ ^ 2 / max ‖g‖ 1) := by
  rw [steepestDescent_eq, dot_smul_right, dot_eq_inner, real_inner_self_eq_norm_sq]
  ring

theorem dot_steepestDescent_neg {g : Vector ℝ n} (nonzero : g ≠ 0) :
    dot g (steepestDescent g (norm g)) < 0 := by
  have norm_pos : 0 < ‖g‖ := norm_pos_iff.mpr nonzero
  rw [dot_steepestDescent]
  exact neg_neg_of_pos (div_pos (pow_pos norm_pos 2) (lt_max_of_lt_left norm_pos))

/-- Shortening the gradient makes its square at most the descent along it. -/
theorem norm_steepestDescent_sq_le :
    ‖steepestDescent g (norm g)‖ ^ 2 ≤ -dot g (steepestDescent g (norm g)) := by
  have one_le : 1 ≤ max ‖g‖ 1 := le_max_right _ _
  have inverse_le : (max ‖g‖ 1)⁻¹ ≤ 1 := inv_le_one_of_one_le₀ one_le
  have inverse_nonneg : 0 ≤ (max ‖g‖ 1)⁻¹ := inv_nonneg.mpr (zero_le_one.trans one_le)
  rw [dot_steepestDescent, steepestDescent_eq, norm_smul, norm_neg,
    Real.norm_of_nonneg inverse_nonneg]
  calc ((max ‖g‖ 1)⁻¹ * ‖g‖) ^ 2
      = (max ‖g‖ 1)⁻¹ * ((max ‖g‖ 1)⁻¹ * ‖g‖ ^ 2) := by ring
    _ ≤ 1 * ((max ‖g‖ 1)⁻¹ * ‖g‖ ^ 2) :=
        mul_le_mul_of_nonneg_right inverse_le (mul_nonneg inverse_nonneg (sq_nonneg _))
    _ = - -(‖g‖ ^ 2 / max ‖g‖ 1) := by ring

end Direction

structure Config.InRange (c : Config ℝ) : Prop where
  tolerance_pos : 0 < c.gradientTolerance
  decrease_lt : c.decrease < 1
  curvatureThreshold_nonneg : 0 ≤ c.curvatureThreshold

theorem Config.inRange (valid : c.check = .ok ()) : c.InRange := by
  unfold Config.check at valid
  split_ifs at valid with _ tolerance constants threshold
  obtain ⟨_, decrease_lt, curvature_lt⟩ := constants
  exact ⟨not_le.mp tolerance, decrease_lt.trans curvature_lt, not_lt.mp threshold⟩

theorem Config.wolfe_valid (valid : c.check = .ok ()) : c.wolfe.check = .ok () := by
  unfold Config.check at valid
  split_ifs at valid with _ _ constants
  have ordered : 0 < c.wolfe.decrease ∧ c.wolfe.decrease < c.wolfe.curvature ∧
      c.wolfe.curvature < 1 := constants
  unfold Wolfe.Settings.check
  rw [if_neg (not_not.mpr ordered), if_neg (by norm_num [Config.wolfe, Wolfe.defaults])]

theorem Config.wolfe_longest_pos (c : Config ℝ) : 0 < c.wolfe.longest := by
  norm_num [Config.wolfe, Wolfe.defaults]

theorem Config.historySize_pos (valid : c.check = .ok ()) : 0 < c.historySize.toNat := by
  unfold Config.check at valid
  split_ifs at valid
  omega

theorem Config.trials_pos (valid : c.check = .ok ()) : 0 < c.wolfe.trials.toNat := by
  have trials_eq : c.wolfe.trials = c.lineSearchTrials := rfl
  unfold Config.check at valid
  split_ifs at valid
  omega

section Steps

variable (upper : ∀ x y, value y ≤ value x + dot (gradient x) (y - x) + L / 2 * norm (y - x) ^ 2)

include upper

/-- A short step along steepest descent is low enough. -/
theorem value_le_of_short {share step : ℝ} (share_lt : share < 1) (step_nonneg : 0 ≤ step)
    (short : L * step ≤ 2 * (1 - share)) (x : Vector ℝ n) :
    value (x + step * steepestDescent (gradient x) (norm (gradient x))) ≤ value x +
      share * step * dot (gradient x) (steepestDescent (gradient x) (norm (gradient x))) := by
  have descent := norm_steepestDescent_sq_le (gradient x)
  set d := steepestDescent (gradient x) (norm (gradient x))
  have above := upper x (x + step * d)
  rw [hmul_eq_smul, add_sub_cancel_left, dot_smul_right, norm_eq_norm, norm_smul,
    Real.norm_of_nonneg step_nonneg, mul_pow] at above
  have bent : L / 2 * (step ^ 2 * ‖d‖ ^ 2) ≤ (1 - share) * step * -dot (gradient x) d :=
    calc L / 2 * (step ^ 2 * ‖d‖ ^ 2)
        = L * step / 2 * (step * ‖d‖ ^ 2) := by ring
      _ ≤ (1 - share) * (step * ‖d‖ ^ 2) :=
          mul_le_mul_of_nonneg_right (by linarith) (mul_nonneg step_nonneg (sq_nonneg _))
      _ ≤ (1 - share) * (step * -dot (gradient x) d) :=
          mul_le_mul_of_nonneg_left (mul_le_mul_of_nonneg_left descent step_nonneg)
            (sub_pos.mpr share_lt).le
      _ = (1 - share) * step * -dot (gradient x) d := by ring
  rw [hmul_eq_smul]
  linarith

variable (inRange : c.InRange) (small : L ≤ (1 - c.decrease) * 2 ^ 54) {x : Vector ℝ n}
  (nonzero : gradient x ≠ 0)

include inRange small nonzero

theorem exists_search :
    ∃ found, Armijo.search (Ray.along value gradient x
        (steepestDescent (gradient x) (norm (gradient x)))).value
      { Armijo.defaults with decrease := c.decrease } (value x)
      (dot (gradient x) (steepestDescent (gradient x) (norm (gradient x)))) 0 = .ok found ∧
      0 < found.1 ∧
      value (x + found.1 * steepestDescent (gradient x) (norm (gradient x))) ≤ value x +
        c.decrease * found.1 *
          dot (gradient x) (steepestDescent (gradient x) (norm (gradient x))) := by
  have falls : ¬ 0 ≤ dot (gradient x) (steepestDescent (gradient x) (norm (gradient x))) :=
    not_le.mpr (dot_steepestDescent_neg nonzero)
  unfold Armijo.search
  rw [if_neg falls]
  have first : (Armijo.defaults : Armijo.Settings ℝ).step = 1 := by
    norm_num [Armijo.defaults]
  have half : (Armijo.defaults : Armijo.Settings ℝ).shrink = 1 / 2 := by
    norm_num [Armijo.defaults]
  have last : (1 : ℝ) * (1 / 2) ^ 53 = (2 ^ 53)⁻¹ := by norm_num
  have short : L * (2 ^ 53)⁻¹ ≤ 2 * (1 - c.decrease) := by
    rw [mul_inv_le_iff₀ (by positivity)]
    linarith
  have low := value_le_of_short upper inRange.decrease_lt (by positivity) short x
  -- After 53 halvings the step is the last one that is not too short, with trials left.
  refine Armijo.exists_backtrack (k := 53) ?_ ?_ ?_ ?_ ?_ ?_ 0
  · rw [half]
    norm_num
  · rw [half]
    norm_num
  · rw [first]
    norm_num
  · exact (by norm_num : 53 < 60)
  · rw [first, half]
    norm_num [leastStep]
  · rw [first, half, last]
    exact low

variable (name : String) (hessian : Vector ℝ n → SquareMatrix ℝ n) (r : Run (State ℝ n) ℝ n)

theorem exists_safeguard :
    ∃ move r', outcome (safeguard (.ofFunctions name value gradient hessian) c
        (.at value gradient x)) r = (.ok (.ok move), r') ∧
      move.direction = steepestDescent (gradient x) (norm (gradient x)) ∧ 0 < move.step ∧
      value (x + move.step * move.direction) ≤
        value x + c.decrease * move.step * dot (gradient x) move.direction := by
  obtain ⟨r', guarded, _⟩ := safeguard_eq name value gradient hessian c (.at value gradient x) r
  obtain ⟨found, searched, step_pos, low⟩ := exists_search upper inRange small nonzero
  refine ⟨⟨found.1, steepestDescent (gradient x) (norm (gradient x))⟩, r', ?_, rfl, step_pos, low⟩
  rw [guarded]
  exact congrArg (fun result : SearchResult ℝ => (Except.ok (result.map fun found =>
    (⟨found.1, steepestDescent (gradient x) (norm (gradient x))⟩ : Move ℝ n)), r')) searched

theorem exists_chooseMove :
    ∃ move r', outcome (chooseMove (.ofFunctions name value gradient hessian) c
      (.at value gradient x)) r = (.ok (.ok move), r') := by
  obtain ⟨found, r', _, chosen, _⟩ | ⟨failure, r₁, _, chosen, _⟩ :=
    chooseMove_cases name value gradient hessian c (.at value gradient x) r
  · exact ⟨_, r', chosen⟩
  · -- Whatever the failure, the safeguard is tried from the same point.
    obtain ⟨move, r', guarded, _⟩ := exists_safeguard upper inRange small nonzero name hessian r₁
    exact ⟨move, r', chosen.trans guarded⟩

end Steps

section Runs

variable {name : String} {hessian : Vector ℝ n → SquareMatrix ℝ n} {options : RunOptions}
  {x : Vector ℝ n} {limit : Nat}

theorem exists_record {threshold : ℝ} (nonneg : 0 ≤ threshold)
    (history : CurvatureHistory ℝ (Vector ℝ n)) (step change : Vector ℝ n) :
    ∃ history' isKept, history.record step change threshold = (history', .ok isKept) := by
  unfold CurvatureHistory.record CurvatureHistory.push
  split_ifs with kept
  · rw [quotient_real (nonneg.trans_lt kept).ne']
    exact ⟨_, _, rfl⟩
  · exact ⟨_, _, rfl⟩

theorem ne_zero_of_not_converged (inRange : c.InRange) {g : Vector ℝ n}
    (notConverged : isConverged (norm g) c.gradientTolerance = false) : g ≠ 0 := by
  have steep := lt_of_isConverged_eq_false notConverged
  rw [norm_eq_norm] at steep
  exact norm_pos_iff.mp ((lt_max_of_lt_left inRange.tolerance_pos).trans steep)

variable (name value gradient hessian options)

theorem follow_completes (inRange : c.InRange) (move : Move ℝ n) (x : Vector ℝ n)
    (r : Run (State ℝ n) ℝ n) :
    ∃ y r', outcome (follow (.ofFunctions name value gradient hessian) c options
      (.at value gradient x) move) r = (.ok (.at value gradient y), r') := by
  obtain ⟨history, isKept, stored⟩ := exists_record inRange.curvatureThreshold_nonneg
    r.state.history (move.step * move.direction)
    (gradient (x + move.step * move.direction) - gradient x)
  obtain ⟨q, r', followed⟩ : ∃ q r', outcome (follow (.ofFunctions name value gradient hessian) c
      options (.at value gradient x) move) r = (.ok q, r') := exists_follow stored
  obtain ⟨rfl, _⟩ := follow_eq_ok followed
  exact ⟨_, r', followed⟩

theorem exists_depart
    (consistent : options.isDebug = true →
      Id.run ((Objective.ofFunctions name value gradient hessian).requireConsistent x
        Objective.defaultTolerance).run = .ok ()) (r : Run (State ℝ n) ℝ n) :
    ∃ p r', outcome (depart (.ofFunctions name value gradient hessian) options x) r =
      (.ok p, r') := by
  unfold depart prepare
  cases debug : options.isDebug with
  | false => exact ⟨_, _, rfl⟩
  | true =>
      simp only [if_true, bind_assoc]
      rw [outcome_bind_of_ok (outcome_update _)]
      rw [outcome_bind_of_ok (outcome_ask_of_eq (consistent debug))]
      exact ⟨_, _, rfl⟩

variable {value gradient}
  (upper : ∀ x y, value y ≤ value x + dot (gradient x) (y - x) + L / 2 * norm (y - x) ^ 2)
  (inRange : c.InRange) (small : L ≤ (1 - c.decrease) * 2 ^ 54)

include upper inRange small

theorem exists_advance (nonzero : gradient x ≠ 0) (r : Run (State ℝ n) ℝ n) :
    ∃ y r', outcome (advance (.ofFunctions name value gradient hessian) c options
      (.at value gradient x)) r = (.ok (.ok (.at value gradient y)), r') := by
  obtain ⟨move, r₁, chosen⟩ := exists_chooseMove upper inRange small nonzero name hessian r
  obtain ⟨y, r₂, followed⟩ := follow_completes value gradient name hessian options inRange move x r₁
  unfold advance
  rw [outcome_bind_of_ok chosen]
  dsimp only
  rw [outcome_bind_of_ok followed]
  exact ⟨y, r₂, rfl⟩

theorem exists_iterate (limit remaining : Nat) (x : Vector ℝ n) (r : Run (State ℝ n) ℝ n) :
    ∃ q ending r', outcome (iterate (.ofFunctions name value gradient hessian) c options limit
        remaining (.at value gradient x)) r = (.ok (q, ending), r') ∧
      ending.status ≠ .lineSearchFailed := by
  induction remaining generalizing x r with
  | zero => exact ⟨_, _, _, rfl, by simp [Ending.status]⟩
  | succ remaining ih =>
      unfold iterate
      by_cases converged : isConverged (norm (Point.at value gradient x).gradient)
          c.gradientTolerance = true
      · rw [if_pos converged]
        exact ⟨_, _, _, rfl, by simp [Ending.status]⟩
      · have nonzero : gradient x ≠ 0 :=
          ne_zero_of_not_converged inRange (eq_false_of_ne_true converged)
        obtain ⟨y, r₁, advanced⟩ :=
          exists_advance name hessian options upper inRange small nonzero r
        rw [if_neg converged, outcome_bind_of_ok advanced]
        exact ih y r₁

theorem exists_run {p : Point ℝ n} {r r' : Run (State ℝ n) ℝ n}
    (departed : outcome (depart (.ofFunctions name value gradient hessian) options x) r =
      (.ok p, r')) :
    ∃ result r'', outcome (run (.ofFunctions name value gradient hessian) c options limit x) r =
        (.ok result, r'') ∧
      result.status ≠ .lineSearchFailed := by
  obtain ⟨rfl, _⟩ := depart_eq_ok departed
  obtain ⟨q, ending, r₁, ran, succeeds⟩ :=
    exists_iterate name hessian options upper inRange small limit limit x r'
  unfold run
  rw [outcome_bind_of_ok departed, outcome_bind_of_ok ran]
  exact ⟨_, _, rfl, succeeds⟩

end Runs

/-- No run of a function that bends up little enough ends with a failed line search: wherever
it comes, if the gradient is above the tolerance there, the safeguard finds a positive step along
steepest descent that decreases the function enough.  A run has a result, unless debug mode finds
the gradient to be inconsistent. -/
theorem optimize_never_fails
    (upper : ∀ x y, value y ≤ value x + dot (gradient x) (y - x) + L / 2 * norm (y - x) ^ 2)
    (small : L ≤ (1 - c.decrease) * 2 ^ 54) (valid : c.check = .ok ()) (name : String)
    (hessian : Vector ℝ n → SquareMatrix ℝ n) (options : RunOptions) (dimension : Dimension)
    (start : Tensor ℝ) (s : State ℝ n) {x : Vector ℝ n} {limit : Nat}
    (accepted : checkRequest dimension c.iterationCap options.budget start = .ok (x, limit)) :
    (∀ done r p, Reaches (.ofFunctions name value gradient hessian) c options limit x s done r p →
      isConverged (norm p.gradient) c.gradientTolerance = false →
      ∀ r', ∃ move r'', outcome (safeguard (.ofFunctions name value gradient hessian) c p) r' =
          (.ok (.ok move), r'') ∧
        move.direction = steepestDescent p.gradient (norm p.gradient) ∧ 0 < move.step ∧
        value (p.location + move.step * move.direction) ≤
          p.value + c.decrease * move.step * dot p.gradient move.direction) ∧
    (∀ result, (Id.run (optimize (.ofFunctions name value gradient hessian) c dimension s start
        options)).result = .ok result → result.status ≠ .lineSearchFailed) ∧
    ((options.isDebug = true →
        Id.run ((Objective.ofFunctions name value gradient hessian).requireConsistent x
          Objective.defaultTolerance).run = .ok ()) →
      ∃ result, (Id.run (optimize (.ofFunctions name value gradient hessian) c dimension s start
        options)).result = .ok result) := by
  have inRange := Config.inRange valid
  refine ⟨?_, ?_, ?_⟩
  · intro done r p reached notConverged r'
    rw [reached.point_eq] at notConverged ⊢
    have nonzero := ne_zero_of_not_converged inRange notConverged
    exact exists_safeguard upper inRange small nonzero name hessian r'
  · intro result ok
    unfold optimize at ok
    rw [Call.make_result accepted] at ok
    rcases ran : outcome (run (.ofFunctions name value gradient hessian) c options limit x)
      ⟨s, x, #[], #[]⟩ with ⟨answer, r'⟩
    rw [ran] at ok
    dsimp only at ok
    subst ok
    obtain ⟨p, r, departed, _⟩ := outcome_bind_eq_ok.mp ran
    obtain ⟨result', r'', ran', succeeds⟩ :=
      exists_run name hessian options upper inRange small departed
    rw [ran] at ran'
    cases ran'
    exact succeeds
  · intro consistent
    obtain ⟨p, r, departed⟩ := exists_depart value gradient name hessian options consistent
      ⟨s, x, #[], #[]⟩
    obtain ⟨result, r', ran, _⟩ := exists_run name hessian options upper inRange small departed
    refine ⟨result, ?_⟩
    unfold optimize
    rw [Call.make_result accepted, ran]

theorem Config.defaults_valid : (Config.defaults : Config ℝ).check = .ok () := by
  unfold Config.check Config.defaults defaultGradientTolerance defaultIterationCap
  norm_num

theorem optimize_never_fails_square :
    ∃ result, (Id.run (optimize Square.objective .defaults (.whole 1)
        ⟨.uninitialized, 0, 0, 0, ⟨10, [], [], []⟩⟩ (.ofVector #v[(1 : ℝ)]) {})).result =
          .ok result ∧
      result.status ≠ .lineSearchFailed := by
  have upper (x y : Vector ℝ 1) :
      Square.value y ≤
        Square.value x + dot (Square.gradient x) (y - x) + 2 / 2 * norm (y - x) ^ 2 := by
    rw [Square.gradient_eq, norm_eq_norm, Square.value, dot_self_about x y, Square.value]
    norm_num
  have resolved : resolveBudget none (Config.defaults : Config ℝ).iterationCap =
      (.ok 100000 : Except (Error ℝ) Int) := rfl
  have accepted : checkRequest (.whole 1) (Config.defaults : Config ℝ).iterationCap none
      (.ofVector #v[(1 : ℝ)]) = .ok (#v[1], 100000) :=
    checkRequest_ofVector (x := #v[1]) (fun _ => rfl) resolved
  obtain ⟨_, succeeds, answers⟩ := optimize_never_fails upper
    (by norm_num [Config.defaults]) Config.defaults_valid "square" Square.hessian {} (.whole 1)
    (.ofVector #v[1]) ⟨.uninitialized, 0, 0, 0, ⟨10, [], [], []⟩⟩ accepted
  obtain ⟨result, ok⟩ := answers (by simp)
  exact ⟨result, ok, succeeds result ok⟩

end Lbfgs

end Descent
