import Descent.Lbfgs.Config
import Descent.Curvature
import Descent.Consistency
import Descent.LineSearch.Armijo
import Descent.Run
/-!
# Runs of the limited-memory method

Each iteration searches along the quasi-Newton direction of the curvature history.  If
that search fails the history is emptied and steepest descent is tried once; if this
fails too the run ends.
-/

namespace Descent.Lbfgs

variable {m : Type → Type} [Monad m] {α : Type} [Scalar α] {n : Nat}

structure State (α : Type) (n : Nat) where
  status : Status
  iterations : Nat
  evaluations : Nat
  gradients : Nat
  history : CurvatureHistory α (Vector α n)

def State.create (c : Config α) : Except (Error α) (State α n) := do
  pure ⟨.uninitialized, 0, 0, 0, ← CurvatureHistory.create c.historySize⟩

abbrev Steps (m : Type → Type) (α : Type) (n : Nat) := RunM m (State α n) α n

open RunM

structure Point (α : Type) (n : Nat) where
  location : Vector α n
  value : α
  gradient : Vector α n

def countEvaluations (k : Nat) : Steps m α n Unit :=
  update fun s => { s with evaluations := s.evaluations + k }

def evaluate (f : Objective m α n) (x : Vector α n) : Steps m α n α := do
  countEvaluations 1
  ask (f.value x)

def gradientAt (f : Objective m α n) (x : Vector α n) : Steps m α n (Vector α n) := do
  update fun s => { s with gradients := s.gradients + 1 }
  ask (f.gradient x)

def alongRay (x direction : Vector α n) (step : α) : Vector α n := x + step * direction

/-- The objective along a ray.  Its searches count their evaluations themselves; gradients
are counted as they are computed. -/
def ray (f : Objective m α n) (x direction : Vector α n) : Ray (Steps m α n) α where
  value step := ask (f.value (alongRay x direction step))
  slope step := do
    let gradient ← gradientAt f (alongRay x direction step)
    pure (dot gradient direction)

/-- Steepest descent, shortened to a unit step where the gradient is long. -/
def steepestDescent (gradient : Vector α n) (gradientNorm : α) : Vector α n :=
  (-gradient).map (· / Scalar.larger gradientNorm 1)

def searchDirection (history : CurvatureHistory α (Vector α n)) (gradient : Vector α n)
    (gradientNorm : α) : Vector α n :=
  if history.size = 0 then steepestDescent gradient gradientNorm
  else -history.applyInverse gradient

structure Move (α : Type) (n : Nat) where
  step : α
  direction : Vector α n

def absorb : Except (Error α) (SearchResult α) → Except (Error α) (SearchResult α)
  | .error (.lineSearch failure) => .ok (.error failure)
  | answer => answer

/-- A search, which an objective may end with a failed search of its own. -/
def caught (search : Steps m α n (SearchResult α)) : Steps m α n (SearchResult α) :=
  ExceptT.mk (absorb <$> search.run)

def safeguard (f : Objective m α n) (c : Config α) (p : Point α n) :
    Steps m α n (Except (SearchFailure α) (Move α n)) := do
  update fun s => { s with history := s.history.clear }
  let direction := steepestDescent p.gradient (norm p.gradient)
  let settings := { Armijo.defaults with decrease := c.decrease }
  match ← caught (Armijo.search (ray f p.location direction).value settings p.value
      (dot p.gradient direction) 0) with
  | .ok (step, evaluations) =>
    countEvaluations evaluations
    pure (.ok ⟨step, direction⟩)
  | .error failure =>
    countEvaluations failure.evaluations
    pure (.error failure)

/-- Searches along a direction, and along steepest descent if that fails. -/
def lineSearch (f : Objective m α n) (c : Config α) (p : Point α n) (direction : Vector α n) :
    Steps m α n (Except (SearchFailure α) (Move α n)) := do
  match ← caught (Wolfe.search (ray f p.location direction) c.wolfe (some p.value)
      (pure (dot p.gradient direction))) with
  | .ok (step, evaluations) =>
    countEvaluations evaluations
    pure (.ok ⟨step, direction⟩)
  | .error failure =>
    countEvaluations failure.evaluations
    report (.searchRetried (← state).iterations failure.fault)
    safeguard f c p

def remember (c : Config α) (move change : Vector α n) : Steps m α n Unit := do
  let (history, stored) := (← state).history.record move change c.curvatureThreshold
  update fun s => { s with history := history }
  match stored with
  | .ok _ => pure ()
  | .error e => throw e

def chooseMove (f : Objective m α n) (c : Config α) (p : Point α n) :
    Steps m α n (Except (SearchFailure α) (Move α n)) := do
  let direction := searchDirection (← state).history p.gradient (norm p.gradient)
  lineSearch f c p direction

def follow (f : Objective m α n) (c : Config α) (options : RunOptions) (p : Point α n)
    (move : Move α n) : Steps m α n (Point α n) := do
  let step := move.step * move.direction
  let x := p.location + step
  let value ← evaluate f x
  let gradient ← gradientAt f x
  remember c step (gradient - p.gradient)
  update fun s => { s with iterations := s.iterations + 1 }
  settle options x
  let s ← state
  report (.lineStep s.iterations value (norm gradient) move.step s.history.size)
  pure ⟨x, value, gradient⟩

def advance (f : Objective m α n) (c : Config α) (options : RunOptions) (p : Point α n) :
    Steps m α n (Except (SearchFailure α) (Point α n)) := do
  match ← chooseMove f c p with
  | .error failure => pure (.error failure)
  | .ok move => return .ok (← follow f c options p move)

/-- Iterates until the gradient is small, the line search fails, or `remaining` iterations
are done. -/
def iterate (f : Objective m α n) (c : Config α) (options : RunOptions) (limit : Nat) :
    (remaining : Nat) → Point α n → Steps m α n (Point α n × Ending α)
  | 0, p => pure (p, .iterationLimit limit)
  | remaining + 1, p => do
    if isConverged (norm p.gradient) c.gradientTolerance then pure (p, .converged)
    else match ← advance f c options p with
      | .error failure => pure (p, .lineSearchFailed failure.fault)
      | .ok next => iterate f c options limit remaining next

def prepare (f : Objective m α n) (options : RunOptions) (x : Vector α n) :
    Steps m α n Unit := do
  update fun s =>
    { s with history := s.history.clear, iterations := 0, evaluations := 0, gradients := 0 }
  if options.isDebug then ask (f.requireConsistent x Objective.defaultTolerance)
  update fun s => { s with status := .running }
  trace options x

def finish (p : Point α n) (ending : Ending α) : Steps m α n (RunResult α n) := do
  update fun s => { s with status := ending.status }
  let r ← get
  report (.lineFinished ending.status r.state.iterations p.value (norm p.gradient))
  pure {
    iterate := p.location
    value := p.value
    ending := ending
    iterations := r.state.iterations
    gradientNorm := norm p.gradient
    evaluations := r.state.evaluations
    gradients := r.state.gradients
    hessians := 0
    radius := none
    trajectory := r.path.toList }

def depart (f : Objective m α n) (options : RunOptions) (x : Vector α n) :
    Steps m α n (Point α n) := do
  prepare f options x
  let value ← evaluate f x
  let gradient ← gradientAt f x
  pure ⟨x, value, gradient⟩

def run (f : Objective m α n) (c : Config α) (options : RunOptions) (limit : Nat)
    (x : Vector α n) : Steps m α n (RunResult α n) := do
  let p ← depart f options x
  let (p, ending) ← iterate f c options limit limit p
  finish p ending

def optimize (f : Objective m α n) (c : Config α) (dimension : Dimension) (state : State α n)
    (start : Tensor α) (options : RunOptions) : m (Call (State α n) α n) :=
  Call.make dimension c.iterationCap options state start (run f c options)

end Descent.Lbfgs
