import Descent.Proofs.Curvature.Isotropic
import Descent.Proofs.Lbfgs.Directions
import Descent.Proofs.Quadratic
/-!
# Runs on isotropic functions

If the matrix of a quadratic function is a positive multiple of the identity, the pairs that a run
stores are all multiples of that kind, and the inverse Hessian that they imply is the exact one.
The first iteration that has a pair to go by therefore searches along the Newton step, the search
accepts its first trial, and the run arrives at the minimizer.
-/

namespace Descent.Lbfgs

open RunM CurvatureHistory

variable {n : Nat} {q : Quadratic ℝ n} {a : ℝ} {c : Config ℝ} {options : RunOptions} {limit : Nat}
  {x : Vector ℝ n} {s : State ℝ n} {done newer older : List (Iteration ℝ n)} {i : Iteration ℝ n}
  {p p' : Point ℝ n} {r r' : Run (State ℝ n) ℝ n}

/-- An iteration that makes the whole step of its direction, to the minimizer. -/
structure Iteration.Lands (q : Quadratic ℝ n) (a : ℝ) (i : Iteration ℝ n) : Prop where
  step_eq : i.move.step = 1
  location_eq : i.target.location = a⁻¹ • q.vector
  gradient_eq : i.target.gradient = 0

theorem Reaches.newest_of_gradient (inRange : c.InRange)
    (reached : Reaches q.objective c options limit x s (newer ++ i :: older) r p)
    (stationary : i.target.gradient = 0) : newer = [] := by
  rcases newer.eq_nil_or_concat with empty | ⟨rest, next, rfl⟩
  · exact empty
  · rw [List.concat_eq_append, List.append_assoc, List.singleton_append] at reached
    obtain ⟨_, _, reached'⟩ := reached.of_append
    obtain ⟨_, _, _, before, notConverged, _⟩ := reached'.of_cons
    have source_eq : next.source = i.target := before.of_cons.1
    rw [source_eq] at notConverged
    exact absurd stationary (ne_zero_of_not_converged inRange notConverged)

section Isotropic

variable (isotropic : q.matrix = .scalar a)

include isotropic

theorem gradient_add_of_isotropic (y d : Vector ℝ n) :
    q.gradient (y + d) = q.gradient y + a • d := by
  rw [Quadratic.gradient_add, isotropic, SquareMatrix.mulVec_scalar]

/-- Every pair that a run stores is a multiple. -/
theorem Reaches.multiples (inRange : c.InRange)
    (reached : Reaches q.objective c options limit x s done r p) :
    ∃ newestFirst, HoldsMultiples a r.state.history newestFirst := by
  induction reached with
  | depart departed =>
      obtain ⟨_, _, _, history_eq, _⟩ := departs_of_ok departed
      exact ⟨[], history_eq ▸ HoldsMultiples.clear⟩
  | @complete done r r₁ r₂ p p' move before _ _ chosen followed ih =>
      have kept : ∃ newestFirst, HoldsMultiples a r₁.state.history newestFirst := by
        cases (chooses_of_ok chosen).2 with
        | searched _ history_eq _ => exact history_eq ▸ ih
        | retried _ history_eq _ => exact ⟨[], history_eq ▸ HoldsMultiples.clear⟩
      obtain ⟨newestFirst, holds⟩ := kept
      obtain ⟨target_eq, _, history_eq, _⟩ := follow_eq_ok followed
      have change_eq : p'.gradient - p.gradient = a • (move.step * move.direction) := by
        rw [target_eq, before.point_eq]
        exact sub_eq_of_eq_add' (gradient_add_of_isotropic isotropic _ _)
      rw [history_eq, change_eq]
      exact holds.record _ inRange.curvatureThreshold_nonneg

section Newton

variable (a_pos : 0 < a)

include a_pos

theorem add_newton (y : Vector ℝ n) : y + -(a⁻¹ • q.gradient y) = a⁻¹ • q.vector := by
  rw [Quadratic.gradient, isotropic, SquareMatrix.mulVec_scalar, smul_sub,
    inv_smul_smul₀ a_pos.ne']
  abel

theorem gradient_minimizer : q.gradient (a⁻¹ • q.vector) = 0 := by
  rw [Quadratic.gradient, isotropic, SquareMatrix.mulVec_scalar, smul_inv_smul₀ a_pos.ne',
    sub_self]

/-- The search accepts the Newton step if no more than half of the first decrease is asked for. -/
theorem accepts_newton (valid : c.check = .ok ()) (gentle : c.decrease ≤ 1 / 2) {y : Vector ℝ n}
    (nonzero : q.gradient y ≠ 0) :
    Wolfe.Accepts (.along q.value q.gradient y (-(a⁻¹ • q.gradient y))) c.wolfe (q.value y)
      (dot (q.gradient y) (-(a⁻¹ • q.gradient y))) 1 := by
  have symmetric : q.matrix.transpose = q.matrix := by
    rw [isotropic, SquareMatrix.transpose_scalar]
  have square_pos := mul_pos (inv_pos.mpr a_pos) (dot_self_pos nonzero)
  have slope_eq : dot (q.gradient y) (-(a⁻¹ • q.gradient y)) =
      -(a⁻¹ * dot (q.gradient y) (q.gradient y)) := by
    rw [dot_neg_right, dot_smul_right]
  have arrives : y + (1 : ℝ) * -(a⁻¹ • q.gradient y) = a⁻¹ • q.vector := by
    rw [hmul_eq_smul, one_smul, add_newton isotropic a_pos]
  have gain : q.value (a⁻¹ • q.vector) =
      q.value y - a⁻¹ * dot (q.gradient y) (q.gradient y) / 2 := by
    have back : a • -(a⁻¹ • q.gradient y) = -q.gradient y := by
      rw [smul_neg, smul_inv_smul₀ a_pos.ne']
    have predicted := Quadratic.value_sub_value_add symmetric y (-(a⁻¹ • q.gradient y))
    rw [add_newton isotropic a_pos, Subproblem.modelReduction, isotropic,
      SquareMatrix.mulVec_scalar, back, dot_neg_right (-(a⁻¹ • q.gradient y)),
      dot_comm (-(a⁻¹ • q.gradient y)), slope_eq] at predicted
    linarith
  have falls : dot (q.gradient y) (-(a⁻¹ • q.gradient y)) < 0 :=
    slope_eq.trans_lt (neg_neg_of_pos square_pos)
  obtain ⟨descends, _⟩ := c.wolfe.descends (Config.wolfe_valid valid) (q.value y) falls
  refine .first falls (Config.trials_pos valid) ?_ ?_ ?_
  · norm_num [Config.wolfe, Wolfe.defaults]
  · rw [arrives, gain, slope_eq, Wolfe.Target.tooHigh_real, decide_eq_false_iff_not, not_lt]
    change _ ≤ q.value y + c.decrease * 1 * -(a⁻¹ * dot (q.gradient y) (q.gradient y))
    linarith [mul_le_mul_of_nonneg_right gentle square_pos.le]
  · rw [arrives, gradient_minimizer isotropic a_pos, dot_eq_inner 0, inner_zero_left,
      Wolfe.Target.isFlat_real, decide_eq_true_eq, abs_zero]
    exact (neg_nonneg.mpr descends.share_neg.le).trans descends.share_le

end Newton

section Runs

variable (a_pos : 0 < a) (valid : c.check = .ok ()) (gentle : c.decrease ≤ 1 / 2)

include a_pos valid gentle

theorem Reaches.accepts_newton (reached : Reaches q.objective c options limit x s done r p)
    (stored : r.state.history.size ≠ 0)
    (notConverged : isConverged (norm p.gradient) c.gradientTolerance = false) :
    firstDirection r p = -(a⁻¹ • q.gradient p.location) ∧
      Wolfe.Accepts (.along q.value q.gradient p.location (firstDirection r p)) c.wolfe p.value
        (dot p.gradient (firstDirection r p)) 1 := by
  have inRange := Config.inRange valid
  obtain ⟨newestFirst, holds⟩ := reached.multiples isotropic inRange
  obtain ⟨y, rfl⟩ : ∃ y, p = .at q.value q.gradient y := ⟨_, reached.point_eq⟩
  have direction_eq : firstDirection r (.at q.value q.gradient y) = -(a⁻¹ • q.gradient y) := by
    rw [firstDirection, searchDirection, if_neg stored, holds.applyInverse_eq a_pos.ne' stored]
    rfl
  refine ⟨direction_eq, ?_⟩
  rw [direction_eq]
  exact Lbfgs.accepts_newton isotropic a_pos valid gentle
    (ne_zero_of_not_converged inRange notConverged)

/-- An iteration that starts with a pair to go by lands on the minimizer, and is the last one. -/
theorem Reaches.lands (before : Reaches q.objective c options limit x s older r p)
    (stored : r.state.history.size ≠ 0)
    (reached : Reaches q.objective c options limit x s (newer ++ i :: older) r' p') :
    newer = [] ∧ i.Lands q a := by
  obtain ⟨_, _, reached'⟩ := reached.of_append
  obtain ⟨_, _, _, before', notConverged, chosen, followed⟩ := reached'.of_cons
  obtain ⟨rfl, rfl⟩ := before.unique before'
  obtain ⟨direction_eq, accepts⟩ :=
    before.accepts_newton isotropic a_pos valid gentle stored notConverged
  have move_eq : i.move = ⟨1, firstDirection r i.source⟩ := move_eq_of_accepts accepts chosen
  have follows := follows_of_ok followed
  have location_eq : i.target.location = a⁻¹ • q.vector := by
    rw [follows.location_eq, move_eq, direction_eq, hmul_eq_smul, one_smul,
      add_newton isotropic a_pos]
  have target_eq : i.target = .at q.value q.gradient i.target.location := follows.isCurrent.eq_at
  have gradient_eq : i.target.gradient = 0 := by
    rw [target_eq, location_eq]
    exact gradient_minimizer isotropic a_pos
  exact ⟨reached.newest_of_gradient (Config.inRange valid) gradient_eq,
    congrArg Move.step move_eq, location_eq, gradient_eq⟩

end Runs

end Isotropic

/-- On a quadratic function whose matrix is a positive multiple of the identity, an iteration that
starts with a pair makes the whole step of its direction and lands on the minimizer, where the
gradient vanishes; it is the last one, so a run completes at most one that starts with a pair. -/
theorem optimize_exact_on_isotropic (isotropic : q.matrix = .scalar a) (a_pos : 0 < a)
    (valid : c.check = .ok ()) (gentle : c.decrease ≤ 1 / 2) (options : RunOptions)
    (dimension : Dimension) (start : Tensor ℝ) (s : State ℝ n)
    (accepted : checkRequest dimension c.iterationCap options.budget start = .ok (x, limit)) :
    (∀ older r p, Reaches q.objective c options limit x s older r p → r.state.history.size ≠ 0 →
      (older.length < limit → isConverged (norm p.gradient) c.gradientTolerance = false →
        ∃ i r', Reaches q.objective c options limit x s (i :: older) r' i.target) ∧
      ∀ newer i r' p', Reaches q.objective c options limit x s (newer ++ i :: older) r' p' →
        newer = [] ∧ i.Lands q a) ∧
    (∀ result, (Id.run (optimize q.objective c dimension s start options)).result = .ok result →
      ∃ done r p, Reaches q.objective c options limit x s done r p ∧
        result.iterations = done.length ∧ result.iterate = p.location ∧
        ∀ newer i older r' p', done = newer ++ i :: older →
          Reaches q.objective c options limit x s older r' p' → r'.state.history.size ≠ 0 →
          newer = [] ∧ i.Lands q a ∧ result.iterate = a⁻¹ • q.vector ∧ result.gradientNorm = 0) ∧
    ∃ result, (Id.run (optimize q.objective c dimension s start options)).result = .ok result := by
  have inRange := Config.inRange valid
  refine ⟨?_, ?_, ?_⟩
  · intro older r p reached stored
    constructor
    · intro before notConverged
      obtain ⟨_, accepts⟩ :=
        reached.accepts_newton isotropic a_pos valid gentle stored notConverged
      obtain ⟨y, r', _, reached', _⟩ :=
        reached.complete_of_accepts inRange before notConverged accepts
      exact ⟨_, r', reached'⟩
    · intro newer i r' p' reached'
      exact reached.lands isotropic a_pos valid gentle stored reached'
  · intro result ok
    obtain ⟨_, _, done, r, p, _, accepted', reached, _, tells⟩ := optimize_ends rfl ok
    cases accepted.symm.trans accepted'
    refine ⟨done, r, p, reached, tells.iterations_eq, tells.iterate_eq, ?_⟩
    rintro newer i older r' p' rfl before stored
    obtain ⟨rfl, lands⟩ := before.lands isotropic a_pos valid gentle stored reached
    have arrived : p = i.target := reached.of_cons.1
    refine ⟨rfl, lands, ?_, ?_⟩
    · rw [tells.iterate_eq, arrived, lands.location_eq]
    · rw [tells.gradientNorm_eq, arrived, lands.gradient_eq, norm_eq_norm, norm_zero]
  · have symmetric : q.matrix.transpose = q.matrix := by
      rw [isotropic, SquareMatrix.transpose_scalar]
    exact exists_result inRange accepted fun _ => Quadratic.requireConsistent_objective symmetric x

section Square

theorem quadratic_value_eq : Quadratic.square.value = Square.value := by
  funext x
  rw [Quadratic.value, Quadratic.square_matrix, SquareMatrix.mulVec_scalar, hmul_eq_smul,
    dot_smul_left, dot_smul_right]
  simp [Quadratic.square, Square.value, dot_eq_sum]
  ring

theorem quadratic_gradient_eq : Quadratic.square.gradient = Square.gradient := by
  funext x
  rw [Quadratic.square_gradient, two_smul]
  rfl

theorem optimize_exact_on_isotropic_square :
    ∃ i j r r', Reaches Quadratic.square.objective .defaults {} 100000 #v[3] unused [i] r
        j.source ∧
      r.state.history.size ≠ 0 ∧
      Reaches Quadratic.square.objective .defaults {} 100000 #v[3] unused [j, i] r' j.target ∧
      j.Lands Quadratic.square 2 := by
  have gentle : (Config.defaults : Config ℝ).decrease ≤ 1 / 2 := by norm_num [Config.defaults]
  have accepted : checkRequest (.whole 1) (Config.defaults : Config ℝ).iterationCap none
      (.ofVector #v[(3 : ℝ)]) = .ok (#v[3], 100000) :=
    checkRequest_ofVector (x := #v[3]) (fun _ => rfl) (rfl : resolveBudget none _ =
      (.ok 100000 : Except (Error ℝ) Int))
  obtain ⟨iterations, _⟩ := optimize_exact_on_isotropic Quadratic.square_matrix two_pos
    Config.defaults_valid gentle {} (.whole 1) (.ofVector #v[3]) unused accepted
  obtain ⟨i, r, reached, size_eq⟩ :=
    reaches_two Quadratic.name fun _ => Quadratic.square.matrix
  have steep := notConverged_square (a := 2) one_le_two
  rw [← quadratic_value_eq, ← quadratic_gradient_eq] at reached steep
  have stored : r.state.history.size ≠ 0 := by
    rw [size_eq]
    exact one_ne_zero
  obtain ⟨completes, lands⟩ := iterations [i] r _ reached stored
  obtain ⟨j, r', reached'⟩ := completes (by norm_num) steep
  obtain ⟨_, _, _, before, _⟩ := reached'.of_cons
  obtain ⟨rfl, _⟩ := reached.unique before
  exact ⟨i, j, r, r', before, stored, reached', (lands [] j r' _ reached').2⟩

end Square

end Descent.Lbfgs
