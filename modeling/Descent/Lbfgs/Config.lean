import Descent.Start
import Descent.LineSearch.Wolfe
/-!
# Settings of the limited-memory method
-/

namespace Descent.Lbfgs

/-- History size, convergence threshold, the two constants of the line search, the
threshold below which a curvature pair is dropped, the trials of a line search and the
iteration cap. -/
structure Config (α : Type) where
  historySize : Int
  gradientTolerance : α
  decrease : α
  curvature : α
  curvatureThreshold : α
  lineSearchTrials : Int
  iterationCap : Int

variable {α : Type} [Scalar α]

namespace Config

def defaults : Config α := ⟨10, defaultGradientTolerance, 1e-4, 0.9, 1e-12, 40, defaultIterationCap⟩

def check (c : Config α) : Except (Error α) Unit :=
  if c.historySize < 1 then .error (.setting (.historySize c.historySize))
  else if c.gradientTolerance ≤ 0 then .error (.setting .gradientTolerance)
  else if ¬(0 < c.decrease ∧ c.decrease < c.curvature ∧ c.curvature < 1) then
    .error (.setting (.wolfeConstants c.decrease c.curvature))
  else if c.curvatureThreshold < 0 then .error (.setting .curvatureThreshold)
  else if c.lineSearchTrials < 1 then .error (.setting .lineSearchBudget)
  else if c.iterationCap < 1 then .error (.setting .iterationCap)
  else .ok ()

def wolfe (c : Config α) : Wolfe.Settings α :=
  { Wolfe.defaults with
    decrease := c.decrease, curvature := c.curvature, trials := c.lineSearchTrials }

end Config

end Descent.Lbfgs
