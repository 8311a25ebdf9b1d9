import Descent.Linear.Vector
/-!
# Rays

A line search sees its function along one ray only: the value and the slope at a step
length.  Both may have effects in a monad of the caller's choice.
-/

namespace Descent

/-- A function of a step length, with its slope. -/
structure Ray (m : Type → Type) (α : Type) where
  value : α → m α
  slope : α → m α

/-- The step length a search settled on and the evaluations it took, or its failure. -/
abbrev SearchResult (α : Type) := Except (SearchFailure α) (α × Nat)

namespace SearchResult

variable {α : Type}

def fail (fault : SearchFault) (step : α) (evaluations : Nat) : SearchResult α :=
  .error ⟨fault, step, evaluations⟩

end SearchResult

def leastStep {α : Type} [Scalar α] : α := 1e-16

end Descent
