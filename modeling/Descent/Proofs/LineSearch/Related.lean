import Descent.LineSearch.Wolfe
import Descent.LineSearch.Armijo
/-!
# Related searches

The searches only sequence trials of their ray.  So a relation between computations that
sequencing keeps holds of the searches along two rays if it holds of their values and slopes.
-/

namespace Descent

variable {m₁ m₂ : Type → Type} [Monad m₁] [Monad m₂] {α : Type}

/-- A relation between computations in two monads that sequencing keeps. -/
structure Sequential (R : ∀ β : Type, m₁ β → m₂ β → Prop) : Prop where
  pure {β : Type} (b : β) : R β (Pure.pure b) (Pure.pure b)
  bind {β γ : Type} {x₁ : m₁ β} {x₂ : m₂ β} {f₁ : β → m₁ γ} {f₂ : β → m₂ γ} :
    R β x₁ x₂ → (∀ b, R γ (f₁ b) (f₂ b)) → R γ (x₁ >>= f₁) (x₂ >>= f₂)

structure Ray.Related (R : ∀ β : Type, m₁ β → m₂ β → Prop) (ray₁ : Ray m₁ α) (ray₂ : Ray m₂ α) :
    Prop where
  value (step : α) : R α (ray₁.value step) (ray₂.value step)
  slope (step : α) : R α (ray₁.slope step) (ray₂.slope step)

namespace Ray.Related

variable {R : ∀ β : Type, m₁ β → m₂ β → Prop} {ray₁ : Ray m₁ α} {ray₂ : Ray m₂ α}

omit [Monad m₁] [Monad m₂] in
theorem ite {β : Type} {c : Prop} [Decidable c] {x₁ y₁ : m₁ β} {x₂ y₂ : m₂ β}
    (holds : R β x₁ x₂) (fails : R β y₁ y₂) :
    R β (if c then x₁ else y₁) (if c then x₂ else y₂) := by
  by_cases h : c
  · rw [if_pos h, if_pos h]
    exact holds
  · rw [if_neg h, if_neg h]
    exact fails

variable [Scalar α]

section Wolfe

open Descent.Wolfe

variable {t : Target α}

theorem refine (related : Related R ray₁ ray₂) (sequential : Sequential R) (b : Bracket α) :
    R _ (Wolfe.refine ray₁ t b) (Wolfe.refine ray₂ t b) := by
  refine sequential.bind (related.value _) fun trial => ite (sequential.pure _) ?_
  exact sequential.bind (related.slope _) fun slope => ite (sequential.pure _) (sequential.pure _)

theorem extend (related : Related R ray₁ ray₂) (sequential : Sequential R) (longest : α)
    (isFirst : Bool) (previous : Trial α) (step : α) :
    R _ (Wolfe.extend ray₁ t longest isFirst previous step)
      (Wolfe.extend ray₂ t longest isFirst previous step) := by
  refine sequential.bind (related.value _) fun value => ite (sequential.pure _) ?_
  refine sequential.bind (related.slope _) fun slope => ite (sequential.pure _) ?_
  exact ite (sequential.pure _) (ite (sequential.pure _) (sequential.pure _))

theorem zoom (related : Related R ray₁ ray₂) (sequential : Sequential R) (k : Nat) (b : Bracket α)
    (evaluations : Nat) :
    R _ (Wolfe.zoom ray₁ t k b evaluations) (Wolfe.zoom ray₂ t k b evaluations) := by
  induction k generalizing b evaluations with
  | zero => exact sequential.pure _
  | succ k ih =>
      refine sequential.bind (related.refine sequential b) fun refinement => ?_
      cases refinement with
      | accepted step => exact sequential.pure _
      | narrowed b => exact ite (sequential.pure _) (ih b _)

theorem settle (related : Related R ray₁ ray₂) (sequential : Sequential R) (b : Bracket α)
    (evaluations : Nat) :
    R _ (Wolfe.settle ray₁ t b evaluations) (Wolfe.settle ray₂ t b evaluations) := by
  refine sequential.bind (related.zoom sequential halvings b evaluations) fun found => ?_
  rcases found with ⟨_ | step, _⟩
  · exact sequential.pure _
  · exact sequential.pure _

theorem lengthen (related : Related R ray₁ ray₂) (sequential : Sequential R) (s : Settings α)
    (trials : Nat) (isFirst : Bool) (previous : Trial α) (step : α) (evaluations : Nat) :
    R _ (Wolfe.lengthen ray₁ t s trials isFirst previous step evaluations)
      (Wolfe.lengthen ray₂ t s trials isFirst previous step evaluations) := by
  induction trials generalizing isFirst previous step evaluations with
  | zero => exact sequential.pure _
  | succ trials ih =>
      refine sequential.bind (related.extend sequential s.longest isFirst previous step)
        fun extension => ?_
      cases extension with
      | accepted step => exact sequential.pure _
      | bracketed b => exact related.settle sequential b _
      | bounded step => exact sequential.pure _
      | lengthened previous step => exact ih false previous step _

theorem wolfe (related : Related R ray₁ ray₂) (sequential : Sequential R) (s : Settings α)
    (start slope : α) :
    R _ (Wolfe.search ray₁ s (some start) (pure slope))
      (Wolfe.search ray₂ s (some start) (pure slope)) := by
  refine sequential.bind (sequential.pure (start, 0)) fun _ => ?_
  refine sequential.bind (sequential.pure slope) fun slope => ?_
  exact ite (related.lengthen sequential _ _ _ _ _ _) (sequential.pure _)

end Wolfe

section Armijo

open Descent.Armijo

theorem backtrack (related : Related R ray₁ ray₂) (sequential : Sequential R) (s : Settings α)
    (start slope : α) (trials : Nat) (step : α) (evaluations : Nat) :
    R _ (Armijo.backtrack ray₁.value s start slope trials step evaluations)
      (Armijo.backtrack ray₂.value s start slope trials step evaluations) := by
  induction trials generalizing step evaluations with
  | zero => exact sequential.pure _
  | succ trials ih =>
      refine sequential.bind (related.value _) fun trial => ite (sequential.pure _) ?_
      exact ite (sequential.pure _) (ih _ _)

theorem armijo (related : Related R ray₁ ray₂) (sequential : Sequential R) (s : Settings α)
    (start slope : α) (evaluations : Nat) :
    R _ (Armijo.search ray₁.value s start slope evaluations)
      (Armijo.search ray₂.value s start slope evaluations) :=
  ite (sequential.pure _) (related.backtrack sequential _ _ _ _ _ _)

end Armijo

end Ray.Related

end Descent
