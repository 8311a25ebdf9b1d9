import Descent.Proofs.Extended.Linear
import Descent.Proofs.Subproblem.Dogleg
/-!
# The subproblem within the extended reals

On a real gradient, Hessian and radius both methods find the step that they find in exact
arithmetic.  If the decrease that the model predicts for a step is finite, everything it was
computed from is real.
-/

namespace Descent

def TrialStep.embed {n : Nat} (trial : TrialStep ℝ n) : TrialStep Extended n :=
  ⟨Extended.embed trial.step, .real trial.predictedReduction, trial.onBoundary⟩

namespace Extended

open Subproblem

/-- Where a computation on real numbers has an answer, that on extended ones has its image. -/
def Transfers {β γ : Type} (image : β → γ) (a : Except (Error ℝ) β)
    (b : Except (Error Extended) γ) : Prop :=
  ∀ x, a = .ok x → b = .ok (image x)

namespace Transfers

variable {β β' γ γ' : Type} {image : β → γ} {image' : β' → γ'}

theorem ok {x : β} {y : γ} (same : y = image x) : Transfers image (.ok x) (.ok y) := by
  rintro _ ⟨⟩
  rw [same]

theorem bind {a : Except (Error ℝ) β} {b : Except (Error Extended) γ}
    {f : β → Except (Error ℝ) β'} {g : γ → Except (Error Extended) γ'}
    (first : Transfers image a b) (rest : ∀ x, Transfers image' (f x) (g (image x))) :
    Transfers image' (a >>= f) (b >>= g) := by
  intro y found
  cases a with
  | error e => cases found
  | ok x =>
      rw [first x rfl]
      exact rest x y found

theorem ite {p q : Prop} [Decidable p] [Decidable q] {a a' : Except (Error ℝ) β}
    {b b' : Except (Error Extended) γ} (same : q ↔ p) (holds : p → Transfers image a b)
    (fails : ¬ p → Transfers image a' b') :
    Transfers image (if p then a else a') (if q then b else b') := by
  by_cases h : p
  · rw [if_pos h, if_pos (same.mpr h)]
    exact holds h
  · rw [if_neg h, if_neg (mt same.mp h)]
    exact fails h

end Transfers

theorem quotient_transfers (a b : ℝ) :
    Transfers real (quotient a b) (quotient (real a) (real b)) := by
  by_cases zero : b = 0
  · intro x found
    rw [quotient_zero (by simpa using zero)] at found
    cases found
  · rw [quotient_real zero, quotient_of_ne (by simpa using zero), real_div zero]
    exact .ok rfl

theorem square_transfers (a : ℝ) : Transfers real (square a) (square (real a)) := by
  have image : square (real a) = .ok (real (a * a)) := by simp [square, checkPower, pow_two]
  rw [square_real, image]
  exact .ok rfl

theorem cube_transfers (a : ℝ) : Transfers real (cube a) (cube (real a)) := by
  have image : cube (real a) = .ok (real (a * a * a)) := by simp [cube, checkPower, pow_three']
  rw [cube_real, image]
  exact .ok rfl

variable {n : Nat}

section Steps

variable (gradient newton p d : Vector ℝ n) (hessian : SquareMatrix ℝ n) (radius : ℝ)

theorem curvature_embed :
    curvature (embed gradient) (embedMatrix hessian) = real (curvature gradient hessian) := by
  rw [curvature, mulVec_embed, dot_embed]
  rfl

theorem modelReduction_embed :
    modelReduction (embed gradient) (embedMatrix hessian) (embed p) =
      real (modelReduction gradient hessian p) := by
  rw [modelReduction, mulVec_embed, dot_embed, dot_embed, ofScientific_def, real_mul, real_add,
    real_neg]
  rfl

theorem cauchyFraction_transfers (length curvature : ℝ) :
    Transfers real (cauchyFraction length curvature radius)
      (cauchyFraction (real length) (real curvature) (real radius)) :=
  .ite Iff.rfl (fun _ => .ok rfl) fun _ =>
    (cube_transfers length).bind fun _ =>
      (quotient_transfers _ _).bind fun _ => .ok (by
        rw [one_def, smaller_real, Scalar.smaller_real])

theorem cauchyPoint_transfers :
    Transfers embed (cauchyPoint gradient hessian radius)
      (cauchyPoint (embed gradient) (embedMatrix hessian) (real radius)) := by
  unfold cauchyPoint
  simp only [norm_embed, norm_eq_norm, curvature_embed]
  refine .ite (by simp) (fun _ => .ok embed_zero.symm) fun _ => ?_
  refine (cauchyFraction_transfers radius _ _).bind fun _ => ?_
  exact (quotient_transfers _ _).bind fun _ => .ok (real_mul_embed _ _)

theorem boundaryIntersection_transfers :
    Transfers real (boundaryIntersection p d radius)
      (boundaryIntersection (embed p) (embed d) (real radius)) := by
  unfold boundaryIntersection
  simp only [dot_embed]
  refine .ite Iff.rfl (fun _ => .ok rfl) fun positive => ?_
  refine (square_transfers radius).bind fun _ => .ok ?_
  have nonzero : 2.0 * dot d d ≠ 0 := by
    have length_pos : 0 < dot d d := not_le.mp positive
    positivity
  simp only [ofScientific_def, zero_def, real_mul, real_sub, larger_real, Scalar.larger_real]
  rw [sqrt_real (le_max_right _ _), real_neg, real_add, real_div nonzero]
  rfl

theorem bentStep_transfers :
    Transfers embed (bentStep gradient newton hessian radius)
      (bentStep (embed gradient) (embed newton) (embedMatrix hessian) (real radius)) := by
  unfold bentStep
  simp only [dot_embed, curvature_embed]
  refine (quotient_transfers _ _).bind fun t => ?_
  simp only [real_neg, real_mul_embed, norm_embed, norm_eq_norm, hmul_eq_smul, embed_sub]
  refine .ite Iff.rfl (fun _ => ?_) fun _ => ?_
  · exact (quotient_transfers _ _).bind fun _ => .ok (real_mul_embed _ _)
  · refine (boundaryIntersection_transfers _ _ radius).bind fun s => .ok ?_
    rw [real_mul_embed, embed_add]

theorem doglegStep_transfers :
    Transfers embed (doglegStep gradient hessian radius)
      (doglegStep (embed gradient) (embedMatrix hessian) (real radius)) := by
  unfold doglegStep
  refine .ite (by rw [isPosDef_embed]) (fun definite => ?_)
    fun _ => cauchyPoint_transfers gradient hessian radius
  obtain ⟨x, solution, _⟩ := SquareMatrix.exists_solve?
    (fun _ => SquareMatrix.regular_of_isPosDef definite) gradient
  have image : SquareMatrix.solve? (embedMatrix hessian) (embed gradient) = some (embed x) := by
    rw [solve?_embed, solution]
    rfl
  rw [SquareMatrix.ridgeSolve_of_solve? solution, SquareMatrix.ridgeSolve_of_solve? image]
  have found : Transfers embed (.ok x) (.ok (embed x)) := .ok rfl
  refine found.bind fun x => ?_
  simp only [embed_neg, norm_embed, norm_eq_norm]
  exact .ite Iff.rfl (fun _ => .ok rfl) fun _ => bentStep_transfers gradient _ hessian radius

theorem stepOf_transfers (method : SearchMethod) :
    Transfers embed (stepOf method gradient hessian radius)
      (stepOf method (embed gradient) (embedMatrix hessian) (real radius)) := by
  cases method with
  | cauchy => exact cauchyPoint_transfers gradient hessian radius
  | dogleg => exact doglegStep_transfers gradient hessian radius

theorem assess_embed :
    assess (embed gradient) (embedMatrix hessian) (real radius) (embed p) =
      (assess gradient hessian radius p).embed := by
  unfold assess TrialStep.embed
  rw [modelReduction_embed, norm_embed]
  rfl

theorem checkRadius_transfers :
    Transfers id (checkRadius radius) (checkRadius (real radius)) :=
  .ite Iff.rfl (fun _ _ refused => nomatch refused) fun _ => .ok rfl

/-- Both methods find the same trial step. -/
theorem solve_transfers (method : SearchMethod) :
    Transfers TrialStep.embed (solve method gradient hessian radius)
      (solve method (embed gradient) (embedMatrix hessian) (real radius)) :=
  (checkRadius_transfers radius).bind fun _ =>
    (stepOf_transfers gradient hessian radius method).bind fun step =>
      .ok (assess_embed gradient step hessian radius)

end Steps

theorem exists_embed_of_modelReduction {gradient step : Vector Extended n}
    {hessian : SquareMatrix Extended n}
    (finite : Scalar.isFinite (modelReduction gradient hessian step) = true) :
    ∃ g H s, gradient = embed g ∧ hessian = embedMatrix H ∧ step = embed s := by
  obtain ⟨linear, form⟩ := isFinite_of_add (isFinite_of_neg finite)
  obtain ⟨⟨g, rfl⟩, s, rfl⟩ := exists_embed_of_dot linear
  obtain ⟨_, z, product⟩ := exists_embed_of_dot (isFinite_of_mul form).2
  obtain ⟨H, rfl⟩ := exists_embedMatrix_of_mulVec product
  exact ⟨g, H, s, rfl, rfl, rfl⟩

end Extended

end Descent
