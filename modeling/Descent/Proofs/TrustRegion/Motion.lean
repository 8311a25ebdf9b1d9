import Descent.Proofs.Motion.Run
import Descent.Proofs.Motion.Subproblem
import Descent.TrustRegion.Run
/-!
# Moved runs of the trust-region method

Models turn with their points, and the ratio of decreases does not see by how much all values are
raised, so that every step of a run commutes with a motion.
-/

namespace Descent.TrustRegion

open RunM (Commutes)

variable {n : Nat} (M : Motion n) (v : ℝ) (f : Objective Id ℝ n) (c : Config ℝ)
  {options : RunOptions}

def Model.turned (model : Model ℝ n) : Model ℝ n :=
  ⟨M.turn model.gradient, M.conjugate model.hessian⟩

def Point.image (p : Point ℝ n) : Point ℝ n :=
  ⟨M.move p.location, p.value + v, p.model.map (.turned M)⟩

def Progress.image : Progress ℝ n → Progress ℝ n
  | .moved p => .moved (p.image M v)
  | .collapsed p => .collapsed (p.image M v)

theorem ratio_raised (value candidate predicted : ℝ) :
    ratio (value + v) (candidate + v) predicted = ratio value candidate predicted := by
  simp only [ratio, Scalar.isFinite_real, add_sub_add_right_eq_sub]

theorem evaluate_commutes (x : Vector ℝ n) :
    Commutes (M.run v id) (· + v) (evaluate f x) (evaluate (M.objective v f) (M.move x)) :=
  .bind (.value f x) fun value => .bind (.update fun _ => rfl) fun _ => .pure value

theorem gradientAt_commutes (x : Vector ℝ n) :
    Commutes (M.run v id) M.turn (gradientAt f x) (gradientAt (M.objective v f) (M.move x)) :=
  .bind (.gradient f x) fun gradient => .bind (.update fun _ => rfl) fun _ => .pure gradient

theorem modelAt_commutes (x : Vector ℝ n) :
    Commutes (M.run v id) (.turned M) (modelAt f x) (modelAt (M.objective v f) (M.move x)) :=
  .bind (.gradient f x) fun gradient => .bind (.hessian f x) fun hessian =>
    .bind (.update fun _ => rfl) fun _ => .pure (Model.mk gradient hessian)

theorem refresh_commutes (off : options.isDebug = false) (p : Point ℝ n) :
    Commutes (M.run v id) (.turned M) (refresh f options p)
      (refresh (M.objective v f) options (p.image M v)) := by
  unfold refresh
  simp only [off, Bool.false_eq_true, if_false, bind_pure]
  cases found : p.model with
  | some model =>
      simp only [Point.image, found, Option.map_some]
      exact .pure model
  | none =>
      simp only [Point.image, found, Option.map_none]
      exact modelAt_commutes M v f p.location

theorem advance_commutes (p : Point ℝ n) (model : Model ℝ n) :
    Commutes (M.run v id) (.image M v) (advance f c options p model)
      (advance (M.objective v f) c options (p.image M v) (model.turned M)) := by
  unfold advance
  refine .bind .state fun s => ?_
  refine .bind (.check (Subproblem.solve_turn M _ _ _ _)) fun trial => ?_
  have candidate : (p.image M v).location + (trial.turned M).step =
      M.move (p.location + trial.step) := (M.move_add _ _).symm
  dsimp only [id]
  rw [candidate]
  refine .bind (evaluate_commutes M v f _) fun value => ?_
  have same : ratio (p.image M v).value (value + v) (trial.turned M).predictedReduction =
      ratio p.value value trial.predictedReduction := ratio_raised v _ _ _
  have level : norm (model.turned M).gradient = norm model.gradient := M.norm_turn _
  rw [same, level]
  refine .bind (.update fun _ => rfl) fun _ => ?_
  by_cases accepted : c.acceptance < ratio p.value value trial.predictedReduction
  · simp only [decide_eq_true accepted, if_true]
    refine .bind (.settle options _) fun _ => .bind (.update fun _ => rfl) fun _ => ?_
    exact .bind .state fun s => .bind (.report _) fun _ => .pure _
  · simp only [decide_eq_false accepted, Bool.false_eq_true, if_false]
    refine .bind (.update fun _ => rfl) fun _ => .bind .state fun s => ?_
    refine .bind (.report _) fun _ => .ite ?_ ?_
    · exact .bind (.report _) fun _ => .pure _
    · exact .pure _

theorem iterate_commutes (off : options.isDebug = false) (limit remaining : Nat) (p : Point ℝ n) :
    Commutes (M.run v id) (Prod.map (.image M v) id) (iterate f c options limit remaining p)
      (iterate (M.objective v f) c options limit remaining (p.image M v)) := by
  induction remaining generalizing p with
  | zero => exact .pure (p, Ending.iterationLimit limit)
  | succ remaining ih =>
      refine .bind (refresh_commutes M v f off p) fun model => ?_
      have level : norm (model.turned M).gradient = norm model.gradient := M.norm_turn _
      rw [level]
      refine .ite (.pure ({ p with model := some model }, Ending.converged)) ?_
      refine .bind (advance_commutes M v f c p model) fun progress => ?_
      cases progress with
      | collapsed p => exact .pure (p, Ending.stagnation c.leastRadius)
      | moved p => exact ih p

theorem depart_commutes (off : options.isDebug = false) (x : Vector ℝ n) :
    Commutes (M.run v id) (.image M v) (depart f c options x)
      (depart (M.objective v f) c options (M.move x)) := by
  have prepared : Commutes (M.run v id) id (prepare f c options x)
      (prepare (M.objective v f) c options (M.move x)) := by
    unfold prepare
    simp only [off, Bool.false_eq_true, if_false]
    exact .bind (.update fun _ => rfl) fun _ => .bind (.update fun _ => rfl) fun _ =>
      .trace options x
  exact .bind prepared fun _ => .bind (evaluate_commutes M v f x) fun value =>
    .pure (Point.mk x value none)

theorem finish_commutes (p : Point ℝ n) (ending : Ending ℝ) :
    Commutes (M.run v id) (.moved M v) (finish f p ending)
      (finish (M.objective v f) (p.image M v) ending) := by
  unfold finish
  refine .bind (.update fun _ => rfl) fun _ => ?_
  extract_lets concluded concluded'
  have concludes (gradient : Vector ℝ n) : Commutes (M.run v id) (.moved M v) (concluded gradient)
      (concluded' (M.turn gradient)) := by
    refine .bind .get fun r => ?_
    rw [M.norm_turn]
    refine .bind (.report _) fun _ => .pure_of_eq ?_
    simp [Motion.run, RunResult.moved, Point.image]
  cases found : p.model with
  | some model =>
      simp only [Point.image, found, Option.map_some]
      exact .bind (.pure model.gradient) concludes
  | none =>
      simp only [Point.image, found, Option.map_none]
      exact .bind (gradientAt_commutes M v f p.location) concludes

theorem run_commutes (off : options.isDebug = false) (limit : Nat) (x : Vector ℝ n) :
    Commutes (M.run v id) (.moved M v) (run f c options limit x)
      (run (M.objective v f) c options limit (M.move x)) :=
  .bind (depart_commutes M v f c off x) fun p =>
    .bind (iterate_commutes M v f c off limit limit p) fun found =>
      finish_commutes M v f found.1 found.2

end Descent.TrustRegion
