import Descent.Session
/-!
# Reports

The lines that describe a finished run, and the two demonstrations: both optimizers on
the chained Rosenbrock function and on the Wood function.
-/

namespace Descent.Report

open Decimal (scientific fixed)

structure Summary where
  status : Status
  value : Float
  iterate : List Float
  iterations : Int
  evaluations : Int
  gradients : Int

def Summary.ofResult {n : Nat} (r : RunResult Float n) : Summary :=
  ⟨r.status, r.value, r.iterate.toList, r.iterations, r.evaluations, r.gradients⟩

/-- The report of a run; an iterate without coordinates has no range to show. -/
def lines (title : String) (s : Summary) : Except (Error Float) (List String) :=
  match minEntry? s.iterate, maxEntry? s.iterate with
  | some least, some greatest => .ok
      [title ++ ":",
       s!"  Status: {s.status.name}",
       s!"  Final objective: {scientific 6 s.value}",
       s!"  Coordinates in [{fixed 4 least}, {fixed 4 greatest}]",
       s!"  Iterations: {s.iterations} (f evals: {s.evaluations}, g evals: {s.gradients})"]
  | _, _ => .error .noEntries

def rule : String := String.ofList (List.replicate 60 '=')

def heading (title : String) : List String := [rule, title, rule]

def demonstrate (title : String) (p : Problem) (config : OptimizerConfig) :
    Except (Error Float) (List String) := do
  let session ← Session.create p config
  let run := session.optimize (Tensor.ofArray (← p.start)) {}
  lines title (Summary.ofResult (← run.result))

def lineConfig (historySize cap : Int) : Except (Error Float) OptimizerConfig := do
  let c := { Lbfgs.Config.defaults with historySize := historySize, iterationCap := cap }
  c.check
  pure (.lbfgs c)

def regionConfig (cap : Int) : Except (Error Float) OptimizerConfig := do
  let c := { TrustRegion.Config.defaults with iterationCap := cap }
  c.check
  pure (.trustRegion c)

def compare (title : String) (p : Problem) (historySize cap : Int) :
    Except (Error Float) (List String) := do
  let line ← demonstrate s!"L-BFGS (history size {historySize})" p (← lineConfig historySize cap)
  let region ← demonstrate "Trust region (Cauchy point)" p (← regionConfig cap)
  pure (heading title ++ line ++ region ++ [""])

def rosenbrock (dimension cap : Int) : Except (Error Float) (List String) := do
  let n ← Rosenbrock.dimension dimension
  compare s!"Example 1: Extended Rosenbrock function, dimension {n}" (.rosenbrock n)
    (min (n / 2 : Nat) 20) cap

def wood (cap : Int) : Except (Error Float) (List String) :=
  compare "Example 2: Wood function" .wood 3 cap

def exampleDimension : Int := 18

def all (cap : Int) : Except (Error Float) (List String) := do
  let first ← rosenbrock exampleDimension cap
  let second ← wood cap
  pure <| [""] ++ heading "unconopt: Unconstrained Optimization Examples" ++ [""]
    ++ first ++ second ++ heading "All examples completed"

end Descent.Report
