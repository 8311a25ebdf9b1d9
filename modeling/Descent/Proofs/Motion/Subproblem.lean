import Descent.Proofs.Motion.Linear
import Descent.Subproblem
/-!
# Moved subproblems

A motion turns the gradient and the Hessian of a model, and both methods then propose the turned
step.  They see the model through norms, curvatures, the test for definiteness and one system only.
-/

namespace Descent

variable {n : Nat}

def TrialStep.turned (M : Motion n) (trial : TrialStep ℝ n) : TrialStep ℝ n :=
  { trial with step := M.turn trial.step }

namespace Subproblem

variable (M : Motion n) (gradient : Vector ℝ n) (hessian : SquareMatrix ℝ n) (radius : ℝ)

@[simp] theorem curvature_conjugate :
    curvature (M.turn gradient) (M.conjugate hessian) = curvature gradient hessian := by
  rw [curvature, M.mulVec_conjugate, M.dot_turn, curvature]

@[simp] theorem modelReduction_conjugate (step : Vector ℝ n) :
    modelReduction (M.turn gradient) (M.conjugate hessian) (M.turn step) =
      modelReduction gradient hessian step := by
  simp only [modelReduction, M.mulVec_conjugate, M.dot_turn]

theorem cauchyPoint_turn :
    cauchyPoint (M.turn gradient) (M.conjugate hessian) radius =
      M.turn <$> cauchyPoint gradient hessian radius := by
  have stays : M.turn (Vector.replicate n 0) = Vector.replicate n 0 := M.turn_zero
  unfold cauchyPoint
  simp only [M.norm_turn, curvature_conjugate]
  split_ifs
  · rw [Except.map_ok, stays]
  · simp only [map_bind, map_pure, M.turn_mul]

theorem boundaryIntersection_turn (p d : Vector ℝ n) :
    boundaryIntersection (M.turn p) (M.turn d) radius = boundaryIntersection p d radius := by
  simp only [boundaryIntersection, M.dot_turn]

theorem bentStep_turn (newton : Vector ℝ n) :
    bentStep (M.turn gradient) (M.turn newton) (M.conjugate hessian) radius =
      M.turn <$> bentStep gradient newton hessian radius := by
  unfold bentStep
  simp only [curvature_conjugate, M.dot_turn, map_bind, ← M.turn_mul, M.norm_turn, ← M.turn_sub,
    boundaryIntersection_turn]
  refine bind_congr fun factor => ?_
  split_ifs
  · simp only [map_bind, map_pure]
  · simp only [map_bind, map_pure, M.turn_add]

theorem doglegStep_turn :
    doglegStep (M.turn gradient) (M.conjugate hessian) radius =
      M.turn <$> doglegStep gradient hessian radius := by
  unfold doglegStep
  rw [M.isPosDef_conjugate]
  split_ifs with definite
  · rw [M.ridgeSolve_conjugate definite, map_bind, bind_map_left]
    refine bind_congr fun solution => ?_
    simp only [← M.turn_neg, M.norm_turn, bentStep_turn]
    split_ifs <;> rfl
  · exact cauchyPoint_turn M gradient hessian radius

/-- Both methods solve the moved model by the turned step. -/
theorem solve_turn (method : SearchMethod) :
    solve method (M.turn gradient) (M.conjugate hessian) radius =
      TrialStep.turned M <$> solve method gradient hessian radius := by
  have steps : stepOf method (M.turn gradient) (M.conjugate hessian) radius =
      M.turn <$> stepOf method gradient hessian radius := by
    cases method with
    | cauchy => exact cauchyPoint_turn M gradient hessian radius
    | dogleg => exact doglegStep_turn M gradient hessian radius
  have assessed (step : Vector ℝ n) :
      assess (M.turn gradient) (M.conjugate hessian) radius (M.turn step) =
        (assess gradient hessian radius step).turned M := by
    simp only [assess, modelReduction_conjugate, M.norm_turn, TrialStep.turned]
  simp only [solve, steps, map_bind, map_pure, bind_map_left, assessed]

end Subproblem

end Descent
