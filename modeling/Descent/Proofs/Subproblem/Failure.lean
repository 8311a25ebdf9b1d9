import Mathlib.Tactic
import Descent.Subproblem
/-!
# Subproblems that fail

The guards of the subproblem test the gradient and the curvature, not the powers, products and
quotients that are formed from them.  So a step fails where one of these leaves the range of the
numbers although the guards have passed, and nowhere else: the gradient's norm and the norm of the
path's corner, which are divisors too, are never zero where they divide.
-/

namespace Descent

variable {α : Type} [Scalar α] {n : Nat}

section Arithmetic

variable {a b base power : α} {e : Error α}

theorem bind_eq_error_iff {ε β γ : Type} {x : Except ε β} {f : β → Except ε γ} {e : ε} :
    x >>= f = .error e ↔ x = .error e ∨ ∃ b, x = .ok b ∧ f b = .error e := by
  cases x <;> simp [bind, Except.bind]

theorem map_eq_error_iff {ε β γ : Type} {x : Except ε β} {f : β → γ} {e : ε} :
    f <$> x = .error e ↔ x = .error e := by
  cases x <;> simp [Functor.map, Except.map]

/-- A power that is not finite although its base is. -/
def Overflows (base power : α) : Prop :=
  Scalar.isFinite base = true ∧ Scalar.isFinite power = false

theorem checkPower_of_overflows (overflows : Overflows base power) :
    checkPower base power = .error .overflow := by
  simp [checkPower, overflows.1, overflows.2]

theorem checkPower_of_not_overflows (finite : ¬ Overflows base power) :
    checkPower base power = .ok power := by
  rw [checkPower, if_neg]
  simpa [Overflows] using finite

end Arithmetic

namespace SquareMatrix

theorem ridgeSolve_eq_error {A : SquareMatrix α n} {b : Vector α n} {ridge : α} {e : Error α}
    (failed : A.ridgeSolve b ridge = .error e) : e = .singular := by
  unfold ridgeSolve at failed
  cases n with
  | zero => cases failed
  | succ n =>
    cases solved : A.solve? b with
    | some x =>
        rw [solved] at failed
        cases failed
    | none =>
        rw [solved] at failed
        obtain ⟨scale, scale_eq⟩ :
            ∃ scale, (ridgeScale (diagonal A).toList : Except (Error α) α) = .ok scale := by
          obtain ⟨d, rest, diagonal_eq⟩ : ∃ d rest, (diagonal A).toList = d :: rest :=
            List.exists_cons_of_length_eq_add_one Vector.length_toList
          rw [diagonal_eq]
          exact ⟨_, rfl⟩
        simp only [scale_eq, bind, Except.bind, solve] at failed
        split at failed <;> cases failed
        rfl

end SquareMatrix

namespace Subproblem

variable {gradient : Vector α n} {hessian : SquareMatrix α n} {radius : α} {e : Error α}

/-- How a step along the ray of steepest descent fails where the model curves up: the cube of the
gradient's norm overflows, or the product of radius and curvature underflows. -/
inductive RayFails (gradient : Vector α n) (hessian : SquareMatrix α n) (radius : α) :
    Error α → Prop
  | cube : Scalar.isZero (norm gradient) = false → ¬ curvature gradient hessian ≤ 0 →
      Overflows (norm gradient) (Scalar.power (norm gradient) 3) →
      RayFails gradient hessian radius .overflow
  | product : Scalar.isZero (norm gradient) = false → ¬ curvature gradient hessian ≤ 0 →
      ¬ Overflows (norm gradient) (Scalar.power (norm gradient) 3) →
      Scalar.isZero (radius * curvature gradient hessian) = true →
      RayFails gradient hessian radius .divisionByZero

theorem cauchyPoint_of_nonzero (nonzero : Scalar.isZero (norm gradient) = false) :
    cauchyPoint gradient hessian radius =
      (fun fraction => -(fraction * radius / norm gradient) * gradient) <$>
        cauchyFraction (norm gradient) (curvature gradient hessian) radius := by
  simp only [cauchyPoint, nonzero, Bool.false_eq_true, if_false, quotient_of_ne nonzero]
  rw [← bind_pure_comp]
  rfl

theorem cauchyFraction_of_curved {gradientNorm curvature : α} (curved : ¬ curvature ≤ 0) :
    cauchyFraction gradientNorm curvature radius = (do
      let cubed ← checkPower gradientNorm (Scalar.power gradientNorm 3)
      (Scalar.smaller · 1) <$> quotient cubed (radius * curvature)) := by
  simp only [cauchyFraction, cube, if_neg curved, ← bind_pure_comp]

theorem cauchyPoint_eq_error_iff :
    cauchyPoint gradient hessian radius = .error e ↔ RayFails gradient hessian radius e := by
  constructor
  · intro failed
    cases zero : Scalar.isZero (norm gradient) with
    | true =>
        rw [cauchyPoint, if_pos zero] at failed
        cases failed
    | false =>
        rw [cauchyPoint_of_nonzero zero, map_eq_error_iff] at failed
        by_cases flat : curvature gradient hessian ≤ 0
        · rw [cauchyFraction, if_pos flat] at failed
          cases failed
        · rw [cauchyFraction_of_curved flat] at failed
          by_cases overflows :
              Overflows (norm gradient) (Scalar.power (norm gradient) 3)
          · rw [checkPower_of_overflows overflows] at failed
            cases failed
            exact .cube zero flat overflows
          · rw [checkPower_of_not_overflows overflows] at failed
            have failed := map_eq_error_iff.mp failed
            cases product : Scalar.isZero (radius * curvature gradient hessian) with
            | true =>
                rw [quotient_zero product] at failed
                cases failed
                exact .product zero flat overflows product
            | false =>
                rw [quotient_of_ne product] at failed
                cases failed
  · rintro (⟨zero, curved, overflows⟩ | ⟨zero, curved, finite, product⟩)
    · rw [cauchyPoint_of_nonzero zero, cauchyFraction_of_curved curved,
        checkPower_of_overflows overflows]
      rfl
    · rw [cauchyPoint_of_nonzero zero, cauchyFraction_of_curved curved,
        checkPower_of_not_overflows finite]
      simp only [quotient_zero product]
      rfl

theorem boundaryIntersection_eq_error_iff {p d : Vector α n} :
    boundaryIntersection p d radius = .error e ↔
      ¬ dot d d ≤ 0 ∧ Overflows radius (Scalar.power radius 2) ∧ e = .overflow := by
  unfold boundaryIntersection square
  by_cases zero : dot d d ≤ 0
  · simp [zero, pure, Except.pure]
  · by_cases overflows : Overflows radius (Scalar.power radius 2)
    · simp [zero, overflows, checkPower_of_overflows overflows, bind, Except.bind, eq_comm]
    · simp [zero, overflows, checkPower_of_not_overflows overflows, bind, Except.bind, pure,
        Except.pure]

/-- The minimizer of the model on the whole ray of steepest descent, where the dogleg path bends. -/
def corner (gradient : Vector α n) (hessian : SquareMatrix α n) : Vector α n :=
  -(dot gradient gradient / curvature gradient hessian) * gradient

inductive BendFails (gradient newton : Vector α n) (hessian : SquareMatrix α n) (radius : α) :
    Error α → Prop
  | curvature : Scalar.isZero (Subproblem.curvature gradient hessian) = true →
      BendFails gradient newton hessian radius .divisionByZero
  | square : Scalar.isZero (Subproblem.curvature gradient hessian) = false →
      ¬ radius ≤ norm (corner gradient hessian) →
      ¬ dot (newton - corner gradient hessian) (newton - corner gradient hessian) ≤ 0 →
      Overflows radius (Scalar.power radius 2) → BendFails gradient newton hessian radius .overflow

theorem bentStep_of_curved {newton : Vector α n}
    (nonzero : Scalar.isZero (curvature gradient hessian) = false) :
    bentStep gradient newton hessian radius =
      if radius ≤ norm (corner gradient hessian) then
        (· * corner gradient hessian) <$> quotient radius (norm (corner gradient hessian))
      else
        (fun t => corner gradient hessian + t * (newton - corner gradient hessian)) <$>
          boundaryIntersection (corner gradient hessian) (newton - corner gradient hessian)
            radius := by
  unfold bentStep
  rw [quotient_of_ne nonzero]
  simp only [← bind_pure_comp]
  rfl

/-- The path fails where the curvature is zero after all or the square of the radius overflows; a
corner that is as long as a positive radius is never zero. -/
theorem bentStep_eq_error_iff {newton : Vector α n}
    (above : ∀ a, radius ≤ a → Scalar.isZero a = false) :
    bentStep gradient newton hessian radius = .error e ↔
      BendFails gradient newton hessian radius e := by
  cases zero : Scalar.isZero (curvature gradient hessian) with
  | true =>
      simp only [bentStep, quotient_zero zero, bind, Except.bind, Except.error.injEq]
      constructor
      · rintro rfl
        exact .curvature zero
      · rintro (_ | ⟨nonzero, -, -, -⟩)
        · rfl
        · simp [zero] at nonzero
  | false =>
      rw [bentStep_of_curved zero]
      split_ifs with reaches
      · rw [quotient_of_ne (above _ reaches)]
        constructor
        · intro failed
          cases failed
        · rintro (zero' | ⟨-, inside, -, -⟩)
          · simp [zero] at zero'
          · exact absurd reaches inside
      · rw [map_eq_error_iff, boundaryIntersection_eq_error_iff]
        constructor
        · rintro ⟨leg, overflows, rfl⟩
          exact .square zero reaches leg overflows
        · rintro (zero' | ⟨-, -, leg, overflows⟩)
          · simp [zero] at zero'
          · exact ⟨leg, overflows, rfl⟩

/-- How a step on the dogleg path fails: the model is not convex and the step along the ray fails,
its Newton step does not exist, or the path bends and its second leg fails. -/
inductive PathFails (gradient : Vector α n) (hessian : SquareMatrix α n) (radius : α) :
    Error α → Prop
  | ray {e : Error α} : hessian.isPosDef = false → RayFails gradient hessian radius e →
      PathFails gradient hessian radius e
  | newton {e : Error α} : hessian.isPosDef = true →
      hessian.ridgeSolve gradient SquareMatrix.defaultRidge = .error e →
      PathFails gradient hessian radius e
  | bend {solution : Vector α n} {e : Error α} : hessian.isPosDef = true →
      hessian.ridgeSolve gradient SquareMatrix.defaultRidge = .ok solution →
      ¬ norm (-solution) ≤ radius → BendFails gradient (-solution) hessian radius e →
      PathFails gradient hessian radius e

theorem doglegStep_eq_error_iff (above : ∀ a, radius ≤ a → Scalar.isZero a = false) :
    doglegStep gradient hessian radius = .error e ↔ PathFails gradient hessian radius e := by
  unfold doglegStep
  cases definite : hessian.isPosDef with
  | false =>
      rw [if_neg Bool.false_ne_true, cauchyPoint_eq_error_iff]
      constructor
      · exact .ray definite
      · rintro (⟨-, fails⟩ | ⟨definite', -⟩ | ⟨definite', -, -, -⟩)
        · exact fails
        · simp [definite] at definite'
        · simp [definite] at definite'
  | true =>
      rw [if_pos rfl, bind_eq_error_iff]
      constructor
      · rintro (failed | ⟨solution, solved, failed⟩)
        · exact .newton definite failed
        · by_cases inside : norm (-solution) ≤ radius
          · rw [if_pos inside] at failed
            cases failed
          · rw [if_neg inside] at failed
            exact .bend definite solved inside ((bentStep_eq_error_iff above).mp failed)
      · rintro (⟨definite', -⟩ | ⟨-, failed⟩ | ⟨-, solved, outside, fails⟩)
        · simp [definite] at definite'
        · exact .inl failed
        · refine .inr ⟨_, solved, ?_⟩
          rw [if_neg outside]
          exact (bentStep_eq_error_iff above).mpr fails

def Fails (method : SearchMethod) (gradient : Vector α n) (hessian : SquareMatrix α n)
    (radius : α) (e : Error α) : Prop :=
  match method with
  | .cauchy => RayFails gradient hessian radius e
  | .dogleg => PathFails gradient hessian radius e

/-- With a positive radius the subproblem fails exactly if its method does. -/
theorem solve_eq_error_iff {method : SearchMethod} (pos : ¬ radius ≤ 0)
    (above : ∀ a, radius ≤ a → Scalar.isZero a = false) :
    solve method gradient hessian radius = .error e ↔ Fails method gradient hessian radius e := by
  have steps : solve method gradient hessian radius =
      assess gradient hessian radius <$> stepOf method gradient hessian radius := by
    rw [solve, checkRadius, if_neg pos, ← bind_pure_comp]
    rfl
  rw [steps, map_eq_error_iff]
  cases method with
  | cauchy => exact cauchyPoint_eq_error_iff
  | dogleg => exact doglegStep_eq_error_iff above

theorem Fails.eq {method : SearchMethod} (fails : Fails method gradient hessian radius e) :
    e = .overflow ∨ e = .divisionByZero ∨ e = .singular := by
  cases method with
  | cauchy => cases fails <;> simp
  | dogleg =>
      rcases fails with ⟨-, ray⟩ | ⟨-, failed⟩ | ⟨-, -, -, bend⟩
      · cases ray <;> simp
      · exact .inr (.inr (SquareMatrix.ridgeSolve_eq_error failed))
      · cases bend <;> simp

end Subproblem

end Descent
