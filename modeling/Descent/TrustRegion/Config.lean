import Descent.Start
import Descent.Subproblem
import Descent.Text.Case
/-!
# Settings of the trust-region method
-/

namespace Descent.TrustRegion

/-- How the subproblem is solved; the first, least and greatest radius; the ratio of actual
to predicted decrease above which a step is accepted, below which the radius shrinks and
above which it grows, with the factors; the convergence threshold and the iteration cap. -/
structure Config (α : Type) where
  method : SearchMethod
  initialRadius : α
  leastRadius : α
  greatestRadius : α
  acceptance : α
  shrinkThreshold : α
  growThreshold : α
  shrinkFactor : α
  growFactor : α
  gradientTolerance : α
  iterationCap : Int

variable {α : Type} [Scalar α]

namespace Config

def defaults : Config α where
  method := .cauchy
  initialRadius := 1.0
  leastRadius := 1e-10
  greatestRadius := 1e3
  acceptance := 0.1
  shrinkThreshold := 0.25
  growThreshold := 0.75
  shrinkFactor := 0.25
  growFactor := 2.0
  gradientTolerance := defaultGradientTolerance
  iterationCap := defaultIterationCap

def check (c : Config α) : Except (Error α) Unit :=
  if ¬(0 < c.leastRadius ∧ c.leastRadius < c.greatestRadius) then
    .error (.setting (.radiusRange c.leastRadius c.greatestRadius))
  else if ¬(c.leastRadius ≤ c.initialRadius ∧ c.initialRadius ≤ c.greatestRadius) then
    .error (.setting .initialRadius)
  else if ¬(0 ≤ c.acceptance ∧ c.acceptance < c.shrinkThreshold
      ∧ c.shrinkThreshold < c.growThreshold ∧ c.growThreshold < 1) then
    .error (.setting .ratioThresholds)
  else if ¬(0 < c.shrinkFactor ∧ c.shrinkFactor < 1) then .error (.setting .shrinkFactor)
  else if c.growFactor ≤ 1 then .error (.setting .growFactor)
  else if c.gradientTolerance ≤ 0 then .error (.setting .gradientTolerance)
  else if c.iterationCap < 1 then .error (.setting .iterationCap)
  else .ok ()

def method? (name : String) : Option SearchMethod := SearchMethod.ofName? (Text.lowercase name)

def ofName (name : String) (c : Config α) : Except (Error α) (Config α) := do
  match method? name with
  | none => throw (.setting (.searchMethod name))
  | some method =>
    let c := { c with method := method }
    c.check
    pure c

end Config

end Descent.TrustRegion
