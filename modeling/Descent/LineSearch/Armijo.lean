import Descent.LineSearch.Ray
/-!
# Backtracking

Shrinks a step length until the function has decreased by a fixed share of what its
slope promises.
-/

namespace Descent.Armijo

variable {m : Type → Type} [Monad m] {α : Type} [Scalar α]

/-- The first step length, the factor that shrinks it, the share of decrease asked for
and the number of trials. -/
structure Settings (α : Type) where
  step : α
  shrink : α
  decrease : α
  trials : Nat

def defaults : Settings α := ⟨1.0, 0.5, 1e-4, 60⟩

def Settings.check (s : Settings α) : Except (Error α) Unit :=
  if ¬(0 < s.decrease ∧ s.decrease < 1) then .error (.argument .armijoConstant)
  else if ¬(0 < s.shrink ∧ s.shrink < 1) then .error (.argument .shrinkRatio)
  else .ok ()

def accepts (decrease start slope step trial : α) : Bool :=
  Scalar.isFinite trial && decide (trial ≤ start + decrease * step * slope)

/-- Tries `step` and its successors until one is accepted, the trials are used up or the
step is too short. -/
def backtrack (value : α → m α) (s : Settings α) (start slope : α) :
    (trials : Nat) → (step : α) → (evaluations : Nat) → m (SearchResult α)
  | 0, step, evaluations => pure (.fail .noDecrease step evaluations)
  | trials + 1, step, evaluations => do
    let trial ← value step
    if accepts s.decrease start slope step trial then pure (.ok (step, evaluations + 1))
    else
      let shorter := step * s.shrink
      if shorter < leastStep then pure (.fail .noDecrease shorter (evaluations + 1))
      else backtrack value s start slope trials shorter (evaluations + 1)

/-- Searches along `value`, which is `start` at step zero and has the given slope there;
a slope that is not negative is refused.  `evaluations` have been spent already. -/
def search (value : α → m α) (s : Settings α) (start slope : α) (evaluations : Nat) :
    m (SearchResult α) :=
  if 0 ≤ slope then pure (.fail .notDescent 0 evaluations)
  else backtrack value s start slope s.trials s.step evaluations

def searchFrom (value : α → m α) (s : Settings α) (known : Option α) (origin slope : m α) :
    m (SearchResult α) := do
  let (start, evaluations) ← match known with
    | some v => pure (v, 0)
    | none => do pure (← origin, 1)
  search value s start (← slope) evaluations

end Descent.Armijo
