import Descent.TrustRegion.Config
import Descent.Consistency
import Descent.Run
/-!
# Runs of the trust-region method

Each iteration minimizes a quadratic model within the current radius.  The ratio of
actual to predicted decrease decides whether the step is accepted and how the radius
changes; a rejection at the least radius ends the run.
-/

namespace Descent.TrustRegion

variable {m : Type → Type} [Monad m] {α : Type} [Scalar α] {n : Nat}

structure State (α : Type) where
  status : Status
  iterations : Nat
  evaluations : Nat
  gradients : Nat
  hessians : Nat
  radius : α

def State.create (c : Config α) : State α := ⟨.uninitialized, 0, 0, 0, 0, c.initialRadius⟩

abbrev Steps (m : Type → Type) (α : Type) (n : Nat) := RunM m (State α) α n

open RunM

structure Model (α : Type) (n : Nat) where
  gradient : Vector α n
  hessian : SquareMatrix α n

/-- A point with its value and, unless it was reached by the last step, its model. -/
structure Point (α : Type) (n : Nat) where
  location : Vector α n
  value : α
  model : Option (Model α n)

def evaluate (f : Objective m α n) (x : Vector α n) : Steps m α n α := do
  let value ← ask (f.value x)
  update fun s => { s with evaluations := s.evaluations + 1 }
  pure value

def gradientAt (f : Objective m α n) (x : Vector α n) : Steps m α n (Vector α n) := do
  let gradient ← ask (f.gradient x)
  update fun s => { s with gradients := s.gradients + 1 }
  pure gradient

def modelAt (f : Objective m α n) (x : Vector α n) : Steps m α n (Model α n) := do
  let gradient ← ask (f.gradient x)
  let hessian ← ask (f.hessian x)
  update fun s => { s with gradients := s.gradients + 1, hessians := s.hessians + 1 }
  pure ⟨gradient, hessian⟩

/-- The model at the current point, computed if there is none yet; in debug mode a new
Hessian must be symmetric. -/
def refresh (f : Objective m α n) (options : RunOptions) (p : Point α n) :
    Steps m α n (Model α n) :=
  match p.model with
  | some model => pure model
  | none => do
    let model ← modelAt f p.location
    if options.isDebug then
      check (model.hessian.requireSymmetric SquareMatrix.symmetryTolerance)
    pure model

/-- The actual decrease beside the predicted one; zero where that means nothing. -/
def ratio (value candidate predicted : α) : α :=
  if 0 < predicted ∧ Scalar.isFinite candidate then (value - candidate) / predicted else 0

def nextRadius (c : Config α) (radius ratio : α) (onBoundary : Bool) : α :=
  if ratio < c.shrinkThreshold then
    Scalar.larger (c.shrinkFactor * radius) c.leastRadius
  else if c.growThreshold < ratio ∧ onBoundary then
    Scalar.smaller (c.growFactor * radius) c.greatestRadius
  else radius

inductive Progress (α : Type) (n : Nat) where
  | moved (p : Point α n)
  | collapsed (p : Point α n)

def advance (f : Objective m α n) (c : Config α) (options : RunOptions) (p : Point α n)
    (model : Model α n) : Steps m α n (Progress α n) := do
  let radius := (← state).radius
  let trial ← check (Subproblem.solve c.method model.gradient model.hessian radius)
  let x := p.location + trial.step
  let value ← evaluate f x
  let ratio := ratio p.value value trial.predictedReduction
  let isAccepted := decide (c.acceptance < ratio)
  update fun s => { s with radius := nextRadius c s.radius ratio trial.onBoundary }
  let next : Point α n := if isAccepted then ⟨x, value, none⟩ else ⟨p.location, p.value, some model⟩
  if isAccepted then settle options x
  update fun s => { s with iterations := s.iterations + 1 }
  let s ← state
  report (.regionStep s.iterations next.value (norm model.gradient) ratio s.radius isAccepted)
  if !isAccepted && decide (radius ≤ c.leastRadius) then
    report (.regionCollapsed s.iterations)
    pure (.collapsed next)
  else pure (.moved next)

/-- Iterates until the gradient is small, the region collapses, or `remaining` iterations
are done. -/
def iterate (f : Objective m α n) (c : Config α) (options : RunOptions) (limit : Nat) :
    (remaining : Nat) → Point α n → Steps m α n (Point α n × Ending α)
  | 0, p => pure (p, .iterationLimit limit)
  | remaining + 1, p => do
    let model ← refresh f options p
    if isConverged (norm model.gradient) c.gradientTolerance then
      pure ({ p with model := some model }, .converged)
    else match ← advance f c options p model with
      | .collapsed p => pure (p, .stagnation c.leastRadius)
      | .moved p => iterate f c options limit remaining p

def prepare (f : Objective m α n) (c : Config α) (options : RunOptions) (x : Vector α n) :
    Steps m α n Unit := do
  update fun s => ⟨s.status, 0, 0, 0, 0, c.initialRadius⟩
  if options.isDebug then ask (f.requireConsistent x Objective.defaultTolerance)
  update fun s => { s with status := .running }
  trace options x

/-- Sets the final status, computes the final gradient if it is not known, and reports. -/
def finish (f : Objective m α n) (p : Point α n) (ending : Ending α) :
    Steps m α n (RunResult α n) := do
  update fun s => { s with status := ending.status }
  let gradient ← match p.model with
    | some model => pure model.gradient
    | none => gradientAt f p.location
  let r ← get
  report (.regionFinished ending.status r.state.iterations p.value (norm gradient) r.state.radius)
  pure {
    iterate := p.location
    value := p.value
    ending := ending
    iterations := r.state.iterations
    gradientNorm := norm gradient
    evaluations := r.state.evaluations
    gradients := r.state.gradients
    hessians := r.state.hessians
    radius := some r.state.radius
    trajectory := r.path.toList }

def depart (f : Objective m α n) (c : Config α) (options : RunOptions) (x : Vector α n) :
    Steps m α n (Point α n) := do
  prepare f c options x
  let value ← evaluate f x
  pure ⟨x, value, none⟩

def run (f : Objective m α n) (c : Config α) (options : RunOptions) (limit : Nat)
    (x : Vector α n) : Steps m α n (RunResult α n) := do
  let p ← depart f c options x
  let (p, ending) ← iterate f c options limit limit p
  finish f p ending

def optimize (f : Objective m α n) (c : Config α) (dimension : Dimension) (state : State α)
    (start : Tensor α) (options : RunOptions) : m (Call (State α) α n) :=
  Call.make dimension c.iterationCap options state start (run f c options)

end Descent.TrustRegion
