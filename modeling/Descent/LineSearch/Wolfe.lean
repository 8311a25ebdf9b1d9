import Descent.LineSearch.Ray
/-!
# The strong Wolfe conditions

A step length is lengthened until it brackets an acceptable one; the bracket is then
halved until its middle meets both conditions: enough decrease, and a slope that is
flat beside the slope at the start.
-/

namespace Descent.Wolfe

variable {m : Type → Type} [Monad m] {α : Type} [Scalar α]

/-- The first step length, the constants of the two conditions, the number of trials of
the bracketing phase and the longest step. -/
structure Settings (α : Type) where
  step : α
  decrease : α
  curvature : α
  trials : Int
  longest : α

def defaults : Settings α := ⟨1.0, 1e-4, 0.9, 40, 1e10⟩

def Settings.check (s : Settings α) : Except (Error α) Unit :=
  if ¬(0 < s.decrease ∧ s.decrease < s.curvature ∧ s.curvature < 1) then
    .error (.argument .wolfeConstants)
  else if s.step ≤ 0 then .error (.argument .initialStep)
  else .ok ()

/-- Value and slope at step zero, and the constants that judge a trial against them. -/
structure Target (α : Type) where
  start : α
  slope : α
  decrease : α
  curvature : α

namespace Target

def tooHigh (t : Target α) (step trial : α) : Bool :=
  !Scalar.isFinite trial || decide (t.start + t.decrease * step * t.slope < trial)

def isFlat (t : Target α) (slope : α) : Bool :=
  decide (Scalar.abs slope ≤ -t.curvature * t.slope)

end Target

/-- Two step lengths around an acceptable one.  The low end has decreased enough, and
the high end may lie on either side of it. -/
structure Bracket (α : Type) where
  low : α
  high : α
  lowValue : α

namespace Bracket

def middle (b : Bracket α) : α := 0.5 * (b.low + b.high)

def isCollapsed (b : Bracket α) : Bool :=
  decide (Scalar.abs (b.high - b.low) ≤ leastStep * Scalar.larger 1 (Scalar.abs b.low))

def step? (b : Bracket α) : Option α := if 0 < b.low then some b.low else none

end Bracket

inductive Refinement (α : Type) where
  | accepted (step : α)
  | narrowed (bracket : Bracket α)

def refine (ray : Ray m α) (t : Target α) (b : Bracket α) : m (Refinement α) := do
  let step := b.middle
  let trial ← ray.value step
  if t.tooHigh step trial || decide (b.lowValue ≤ trial) then
    pure (.narrowed { b with high := step })
  else
    let slope ← ray.slope step
    if t.isFlat slope then pure (.accepted step)
    else
      let high := if 0 ≤ slope * (b.high - b.low) then b.low else b.high
      pure (.narrowed ⟨step, high, trial⟩)

/-- Halves a bracket until its middle is accepted, it collapses or the halvings are used
up; in the last two cases its low end is the answer, if it is a step at all. -/
def zoom (ray : Ray m α) (t : Target α) :
    (halvings : Nat) → Bracket α → (evaluations : Nat) → m (Option α × Nat)
  | 0, b, evaluations => pure (b.step?, evaluations)
  | halvings + 1, b, evaluations => do
    match ← refine ray t b with
    | .accepted step => pure (some step, evaluations + 1)
    | .narrowed b =>
      if b.isCollapsed then pure (b.step?, evaluations + 1)
      else zoom ray t halvings b (evaluations + 1)

def halvings : Nat := 60

def settle (ray : Ray m α) (t : Target α) (b : Bracket α) (evaluations : Nat) :
    m (SearchResult α) := do
  match ← zoom ray t halvings b evaluations with
  | (some step, evaluations) => pure (.ok (step, evaluations))
  | (none, evaluations) => pure (.fail .underflow 0 evaluations)

structure Trial (α : Type) where
  step : α
  value : α

inductive Extension (α : Type) where
  | accepted (step : α)
  | bracketed (bracket : Bracket α)
  | bounded (step : α)
  | lengthened (previous : Trial α) (step : α)

/-- Tries a step length: it is accepted, or closes a bracket with the one before, or is
doubled unless it is the longest.  Only from the second trial on must the value keep
falling. -/
def extend (ray : Ray m α) (t : Target α) (longest : α) (isFirst : Bool)
    (previous : Trial α) (step : α) : m (Extension α) := do
  let value ← ray.value step
  if t.tooHigh step value || (!isFirst && decide (previous.value ≤ value)) then
    pure (.bracketed ⟨previous.step, step, previous.value⟩)
  else
    let slope ← ray.slope step
    if t.isFlat slope then pure (.accepted step)
    else if 0 ≤ slope then pure (.bracketed ⟨step, previous.step, value⟩)
    else if longest ≤ step then pure (.bounded step)
    else pure (.lengthened ⟨step, value⟩ (Scalar.smaller (2.0 * step) longest))

def lengthen (ray : Ray m α) (t : Target α) (s : Settings α) :
    (trials : Nat) → (isFirst : Bool) → (previous : Trial α) → (step : α) →
    (evaluations : Nat) → m (SearchResult α)
  | 0, _, _, step, evaluations => pure (.fail (.trialsExhausted s.trials) step evaluations)
  | trials + 1, isFirst, previous, step, evaluations => do
    match ← extend ray t s.longest isFirst previous step with
    | .accepted step => pure (.ok (step, evaluations + 1))
    | .bracketed b => settle ray t b (evaluations + 1)
    | .bounded step => pure (.fail .stepBound step (evaluations + 1))
    | .lengthened previous step =>
      lengthen ray t s trials false previous step (evaluations + 1)

/-- Searches along a ray for a step length that meets both conditions.  The value at step
zero is evaluated unless it is known; the slope there must be negative. -/
def search (ray : Ray m α) (s : Settings α) (start : Option α) (slope : m α) :
    m (SearchResult α) := do
  let (start, evaluations) ← match start with
    | some value => pure (value, 0)
    | none => do pure (← ray.value 0, 1)
  let slope ← slope
  if slope < 0 then
    lengthen ray ⟨start, slope, s.decrease, s.curvature⟩ s s.trials.toNat true ⟨0, start⟩
      (Scalar.smaller s.step s.longest) evaluations
  else pure (.fail .notDescent 0 evaluations)

end Descent.Wolfe
