import Descent.Proofs.Linear.Space
import Descent.LineSearch.Wolfe
import Descent.LineSearch.Armijo
/-!
# Rays without effects

A ray that is given by a function and its slope, and what one trial of the strong Wolfe
search does on it.
-/

namespace Descent

variable {α : Type}

def Ray.ofFunctions (value slope : α → α) : Ray Id α where
  value step := pure (value step)
  slope step := pure (slope step)

def Ray.along [Scalar α] {n : Nat} (value : Vector α n → α)
    (gradient : Vector α n → Vector α n) (x direction : Vector α n) : Ray Id α :=
  .ofFunctions (fun step => value (x + step * direction))
    (fun step => dot (gradient (x + step * direction)) direction)

namespace Wolfe

variable [Scalar α] {φ φ' : α → α} {t : Target α}

section Refine

variable {b b' : Bracket α}

/-- A bracket is narrowed from its high end if the middle is too high or above the low end,
and else from its low end, turned round if the slope rises towards the high one. -/
theorem refine_eq_narrowed (narrowed : refine (.ofFunctions φ φ') t b = .narrowed b') :
    (b' = { b with high := b.middle } ∧
      (t.tooHigh b.middle (φ b.middle) = true ∨ b.lowValue ≤ φ b.middle)) ∨
    (b' = ⟨b.middle, if 0 ≤ φ' b.middle * (b.high - b.low) then b.low else b.high,
        φ b.middle⟩ ∧
      t.tooHigh b.middle (φ b.middle) = false ∧ ¬ b.lowValue ≤ φ b.middle ∧
      t.isFlat (φ' b.middle) = false) := by
  simp only [refine, Ray.ofFunctions, pure_bind] at narrowed
  split_ifs at narrowed with rejected flat turned
  · cases narrowed
    exact .inl ⟨rfl, by simpa using rejected⟩
  all_goals
    cases narrowed
    simp only [Bool.or_eq_true, decide_eq_true_eq, not_or, Bool.not_eq_true] at rejected flat
    exact .inr ⟨by simp [turned], rejected.1, rejected.2, flat⟩

theorem refine_eq_accepted {step : α}
    (accepted : refine (.ofFunctions φ φ') t b = .accepted step) :
    step = b.middle ∧ t.tooHigh step (φ step) = false ∧ t.isFlat (φ' step) = true := by
  simp only [refine, Ray.ofFunctions, pure_bind] at accepted
  split_ifs at accepted with rejected flat
  cases accepted
  simp only [Bool.or_eq_true, decide_eq_true_eq, not_or, Bool.not_eq_true] at rejected
  exact ⟨rfl, rejected.1, flat⟩

end Refine

section Extend

variable {longest : α} {isFirst : Bool} {previous : Trial α} {step : α}

theorem extend_eq_accepted {step' : α}
    (accepted : extend (.ofFunctions φ φ') t longest isFirst previous step = .accepted step') :
    step' = step ∧ t.tooHigh step (φ step) = false ∧ t.isFlat (φ' step) = true := by
  simp only [extend, Ray.ofFunctions, pure_bind] at accepted
  split_ifs at accepted with rejected flat
  cases accepted
  simp only [Bool.or_eq_true, not_or, Bool.not_eq_true] at rejected
  exact ⟨rfl, rejected.1, flat⟩

/-- A bracket is opened by a step that is too high or no longer falls, from the step before
to it, or by one at which the function rises, from it back to the step before. -/
theorem extend_eq_bracketed {b : Bracket α}
    (bracketed : extend (.ofFunctions φ φ') t longest isFirst previous step = .bracketed b) :
    (b = ⟨previous.step, step, previous.value⟩ ∧
      (t.tooHigh step (φ step) = true ∨ isFirst = false ∧ previous.value ≤ φ step)) ∨
    (b = ⟨step, previous.step, φ step⟩ ∧ t.tooHigh step (φ step) = false ∧
      (isFirst = true ∨ ¬ previous.value ≤ φ step) ∧ t.isFlat (φ' step) = false ∧
      0 ≤ φ' step) := by
  simp only [extend, Ray.ofFunctions, pure_bind] at bracketed
  split_ifs at bracketed with rejected flat rises
  · cases bracketed
    exact .inl ⟨rfl, by simpa using rejected⟩
  · cases bracketed
    simp only [Bool.or_eq_true, Bool.and_eq_true, not_or, Bool.not_eq_true, not_and,
      Bool.not_eq_eq_eq_not, Bool.not_true, decide_eq_true_eq] at rejected flat
    refine .inr ⟨rfl, rejected.1, ?_, flat, rises⟩
    cases isFirst
    · exact .inr (by simpa using rejected.2)
    · exact .inl rfl

theorem extend_eq_bounded {bound : α}
    (bounded : extend (.ofFunctions φ φ') t longest isFirst previous step = .bounded bound) :
    t.isFlat (φ' step) = false ∧ ¬ 0 ≤ φ' step ∧ longest ≤ step := by
  simp only [extend, Ray.ofFunctions, pure_bind] at bounded
  split_ifs at bounded with _ flat rises reached
  exact ⟨eq_false_of_ne_true flat, rises, reached⟩

theorem extend_eq_lengthened {previous' : Trial α} {step' : α}
    (lengthened : extend (.ofFunctions φ φ') t longest isFirst previous step =
      .lengthened previous' step') :
    previous' = ⟨step, φ step⟩ ∧ step' = Scalar.smaller (2.0 * step) longest ∧
      t.tooHigh step (φ step) = false ∧ t.isFlat (φ' step) = false ∧ ¬ 0 ≤ φ' step ∧
      ¬ longest ≤ step := by
  simp only [extend, Ray.ofFunctions, pure_bind] at lengthened
  split_ifs at lengthened with rejected flat rises bounded
  cases lengthened
  simp only [Bool.or_eq_true, not_or, Bool.not_eq_true] at rejected flat
  exact ⟨rfl, rfl, rejected.1, flat, rises, bounded⟩

end Extend

section Steps

variable {ray : Ray Id α}

theorem zoom_succ (k : Nat) (b : Bracket α) (evaluations : Nat) :
    zoom ray t (k + 1) b evaluations =
      match (refine ray t b).run with
      | .accepted step => (some step, evaluations + 1)
      | .narrowed b =>
        if b.isCollapsed then (b.step?, evaluations + 1)
        else zoom ray t k b (evaluations + 1) := rfl

theorem settle_eq (b : Bracket α) (evaluations : Nat) :
    settle ray t b evaluations =
      match (zoom ray t halvings b evaluations).run with
      | (some step, evaluations) => .ok (step, evaluations)
      | (none, evaluations) => .fail .underflow 0 evaluations := rfl

theorem lengthen_succ (s : Settings α) (trials : Nat) (isFirst : Bool) (previous : Trial α)
    (step : α) (evaluations : Nat) :
    lengthen ray t s (trials + 1) isFirst previous step evaluations =
      match (extend ray t s.longest isFirst previous step).run with
      | .accepted step => .ok (step, evaluations + 1)
      | .bracketed b => settle ray t b (evaluations + 1)
      | .bounded step => .fail .stepBound step (evaluations + 1)
      | .lengthened previous step =>
        lengthen ray t s trials false previous step (evaluations + 1) := rfl

theorem search_known (s : Settings α) (start slope : α) :
    search ray s (some start) (pure slope) =
      if slope < 0 then
        lengthen ray ⟨start, slope, s.decrease, s.curvature⟩ s s.trials.toNat true ⟨0, start⟩
          (Scalar.smaller s.step s.longest) 0
      else .fail .notDescent 0 0 := rfl

end Steps

end Wolfe

end Descent
