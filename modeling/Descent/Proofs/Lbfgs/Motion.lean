import Descent.Proofs.LineSearch.Raised
import Descent.Proofs.Motion.Curvature
import Descent.Proofs.Motion.Run
import Descent.Lbfgs.Run
/-!
# Moved runs of the limited-memory method

Directions turn with their gradients, since the history does and steepest descent too, and the
searches along them see neither the motion nor by how much all values are raised, so that every
step of a run commutes with a motion.
-/

namespace Descent.Lbfgs

open RunM (Commutes)

variable {n : Nat} (M : Motion n) (v : ℝ) (f : Objective Id ℝ n) (c : Config ℝ)
  {options : RunOptions}

def State.turned (s : State ℝ n) : State ℝ n := { s with history := s.history.turned M }

def Point.image (p : Point ℝ n) : Point ℝ n :=
  ⟨M.move p.location, p.value + v, M.turn p.gradient⟩

def Move.turned (move : Move ℝ n) : Move ℝ n := { move with direction := M.turn move.direction }

section Directions

theorem steepestDescent_turn (gradient : Vector ℝ n) (gradientNorm : ℝ) :
    steepestDescent (M.turn gradient) gradientNorm =
      M.turn (steepestDescent gradient gradientNorm) := by
  rw [steepestDescent, steepestDescent, ← M.turn_neg, map_div_eq_smul, map_div_eq_smul,
    M.turn_smul]

theorem searchDirection_turned (history : CurvatureHistory ℝ (Vector ℝ n))
    (gradient : Vector ℝ n) (gradientNorm : ℝ) :
    searchDirection (history.turned M) (M.turn gradient) gradientNorm =
      M.turn (searchDirection history gradient gradientNorm) := by
  unfold searchDirection
  rw [history.size_turned, history.applyInverse_turned, steepestDescent_turn, apply_ite M.turn,
    M.turn_neg]

theorem alongRay_move (x direction : Vector ℝ n) (step : ℝ) :
    alongRay (M.move x) (M.turn direction) step = M.move (alongRay x direction step) := by
  rw [alongRay, alongRay, M.move_add, M.turn_mul]

end Directions

section Searches

theorem countEvaluations_commutes (k : Nat) :
    Commutes (M.run v (State.turned M)) id (countEvaluations k) (countEvaluations k) :=
  .update fun _ => rfl

theorem evaluate_commutes (x : Vector ℝ n) :
    Commutes (M.run v (State.turned M)) (· + v) (evaluate f x)
      (evaluate (M.objective v f) (M.move x)) :=
  .bind (countEvaluations_commutes M v 1) fun _ => .value f x

theorem gradientAt_commutes (x : Vector ℝ n) :
    Commutes (M.run v (State.turned M)) M.turn (gradientAt f x)
      (gradientAt (M.objective v f) (M.move x)) :=
  .bind (.update fun _ => rfl) fun _ => .gradient f x

theorem ray_related (x direction : Vector ℝ n) :
    ((ray f x direction).raised v).Related
      (fun _ x y => Commutes (M.run v (State.turned M)) id x y)
      (ray (M.objective v f) (M.move x) (M.turn direction)) where
  value step := by
    have point := alongRay_move M x direction step
    simp only [ray, Ray.raised, point]
    exact .image_left (.value f _)
  slope step := by
    have point := alongRay_move M x direction step
    simp only [ray, Ray.raised, point]
    exact .bind (gradientAt_commutes M v f _) fun g => .pure_of_eq (M.dot_turn g direction)

theorem caught_commutes {x y : Steps Id ℝ n (SearchResult ℝ)}
    (commutes : Commutes (M.run v (State.turned M)) id x y) :
    Commutes (M.run v (State.turned M)) id (caught x) (caught y) := by
  intro r
  have same := commutes r
  rw [Except.map_id] at same
  change (absorb (RunM.outcome y _).1, (RunM.outcome y _).2) = _
  rw [same, Except.map_id]
  rfl

theorem safeguard_commutes (p : Point ℝ n) :
    Commutes (M.run v (State.turned M)) (.map (Move.turned M)) (safeguard f c p)
      (safeguard (M.objective v f) c (p.image M v)) := by
  unfold safeguard
  refine .bind (.update fun _ => rfl) fun _ => ?_
  have steepest : steepestDescent (p.image M v).gradient (norm (p.image M v).gradient) =
      M.turn (steepestDescent p.gradient (norm p.gradient)) := by
    rw [Point.image, M.norm_turn, steepestDescent_turn]
  have slope (direction : Vector ℝ n) :
      dot (p.image M v).gradient (M.turn direction) = dot p.gradient direction := M.dot_turn _ _
  rw [steepest]
  dsimp only
  rw [slope, ← Armijo.search_raised v]
  refine .bind (caught_commutes M v ((ray_related M v f p.location _).armijo
    Commutes.sequential _ _ _ _)) fun found => ?_
  cases found with
  | ok found =>
      refine .bind (countEvaluations_commutes M v _) fun _ => ?_
      exact .pure (Except.ok (Move.mk _ _))
  | error failure =>
      refine .bind (countEvaluations_commutes M v _) fun _ => ?_
      exact .pure (Except.error failure)

theorem lineSearch_commutes (p : Point ℝ n) (direction : Vector ℝ n) :
    Commutes (M.run v (State.turned M)) (.map (Move.turned M)) (lineSearch f c p direction)
      (lineSearch (M.objective v f) c (p.image M v) (M.turn direction)) := by
  unfold lineSearch
  have slope : dot (p.image M v).gradient (M.turn direction) = dot p.gradient direction :=
    M.dot_turn _ _
  rw [slope, ← Wolfe.search_raised v]
  refine .bind (caught_commutes M v ((ray_related M v f p.location _).wolfe
    Commutes.sequential _ _ _)) fun found => ?_
  cases found with
  | ok found =>
      refine .bind (countEvaluations_commutes M v _) fun _ => ?_
      exact .pure (Except.ok (Move.mk _ _))
  | error failure =>
      refine .bind (countEvaluations_commutes M v _) fun _ => .bind .state fun s => ?_
      exact .bind (.report _) fun _ => safeguard_commutes M v f c p

end Searches

section Iterations

theorem chooseMove_commutes (p : Point ℝ n) :
    Commutes (M.run v (State.turned M)) (.map (Move.turned M)) (chooseMove f c p)
      (chooseMove (M.objective v f) c (p.image M v)) := by
  refine .bind .state fun s => ?_
  have direction : searchDirection (s.turned M).history (p.image M v).gradient
      (norm (p.image M v).gradient) =
        M.turn (searchDirection s.history p.gradient (norm p.gradient)) := by
    rw [Point.image, M.norm_turn, State.turned, searchDirection_turned]
  rw [direction]
  exact lineSearch_commutes M v f c p _

theorem remember_commutes (move change : Vector ℝ n) :
    Commutes (M.run v (State.turned M)) id (remember c move change)
      (remember c (M.turn move) (M.turn change)) := by
  refine .bind .state fun s => ?_
  have turned := s.history.record_turned M move change c.curvatureThreshold
  rw [State.turned, turned]
  -- Products are kept, so that the weight fails to be computed on both sides or on neither.
  rcases s.history.record move change c.curvatureThreshold with ⟨history, stored⟩
  refine .bind (.update fun _ => rfl) fun _ => ?_
  cases stored with
  | ok isStored => exact .pure ()
  | error e => exact .throw e

theorem follow_commutes (p : Point ℝ n) (move : Move ℝ n) :
    Commutes (M.run v (State.turned M)) (.image M v) (follow f c options p move)
      (follow (M.objective v f) c options (p.image M v) (move.turned M)) := by
  have step : (move.turned M).step * (move.turned M).direction =
      M.turn (move.step * move.direction) := (M.turn_mul _ _).symm
  have point : (p.image M v).location + M.turn (move.step * move.direction) =
      M.move (p.location + move.step * move.direction) := (M.move_add _ _).symm
  have change (gradient : Vector ℝ n) : M.turn gradient - (p.image M v).gradient =
      M.turn (gradient - p.gradient) := (M.turn_sub _ _).symm
  unfold follow
  rw [step]
  dsimp only
  rw [point]
  refine .bind (evaluate_commutes M v f _) fun value => ?_
  refine .bind (gradientAt_commutes M v f _) fun gradient => ?_
  rw [change, M.norm_turn]
  refine .bind (remember_commutes M v c _ _) fun _ => .bind (.update fun _ => rfl) fun _ => ?_
  refine .bind (.settle options _) fun _ => .bind .state fun s => ?_
  have pairs : (s.turned M).history.size = s.history.size := s.history.size_turned M
  rw [pairs]
  exact .bind (.report _) fun _ => .pure (Point.mk _ value gradient)

theorem advance_commutes (p : Point ℝ n) :
    Commutes (M.run v (State.turned M)) (.map (.image M v)) (advance f c options p)
      (advance (M.objective v f) c options (p.image M v)) := by
  refine .bind (chooseMove_commutes M v f c p) fun chosen => ?_
  cases chosen with
  | error failure => exact .pure (Except.error failure)
  | ok move =>
      exact .bind (follow_commutes M v f c p move) fun next => .pure (Except.ok next)

theorem iterate_commutes (limit remaining : Nat) (p : Point ℝ n) :
    Commutes (M.run v (State.turned M)) (Prod.map (.image M v) id)
      (iterate f c options limit remaining p)
      (iterate (M.objective v f) c options limit remaining (p.image M v)) := by
  induction remaining generalizing p with
  | zero => exact .pure (p, Ending.iterationLimit limit)
  | succ remaining ih =>
      have level : norm (p.image M v).gradient = norm p.gradient := M.norm_turn _
      unfold iterate
      rw [level]
      refine .ite (.pure (p, Ending.converged)) ?_
      refine .bind (advance_commutes M v f c p) fun advanced => ?_
      cases advanced with
      | error failure => exact .pure (p, Ending.lineSearchFailed failure.fault)
      | ok next => exact ih next

end Iterations

section Runs

theorem depart_commutes (off : options.isDebug = false) (x : Vector ℝ n) :
    Commutes (M.run v (State.turned M)) (.image M v) (depart f options x)
      (depart (M.objective v f) options (M.move x)) := by
  have prepared : Commutes (M.run v (State.turned M)) id (prepare f options x)
      (prepare (M.objective v f) options (M.move x)) := by
    unfold prepare
    simp only [off, Bool.false_eq_true, if_false]
    exact .bind (.update fun _ => rfl) fun _ => .bind (.update fun _ => rfl) fun _ =>
      .trace options x
  exact .bind prepared fun _ => .bind (evaluate_commutes M v f x) fun value =>
    .bind (gradientAt_commutes M v f x) fun gradient => .pure (Point.mk x value gradient)

theorem finish_commutes (p : Point ℝ n) (ending : Ending ℝ) :
    Commutes (M.run v (State.turned M)) (.moved M v) (finish p ending)
      (finish (p.image M v) ending) := by
  have level : norm (p.image M v).gradient = norm p.gradient := M.norm_turn _
  unfold finish
  rw [level]
  refine .bind (.update fun _ => rfl) fun _ => .bind .get fun r => ?_
  refine .bind (.report _) fun _ => .pure_of_eq ?_
  simp [Motion.run, RunResult.moved, Point.image, State.turned]

theorem run_commutes (off : options.isDebug = false) (limit : Nat) (x : Vector ℝ n) :
    Commutes (M.run v (State.turned M)) (.moved M v) (run f c options limit x)
      (run (M.objective v f) c options limit (M.move x)) :=
  .bind (depart_commutes M v f off x) fun p =>
    .bind (iterate_commutes M v f c limit limit p) fun found =>
      finish_commutes M v found.1 found.2

end Runs

end Descent.Lbfgs
