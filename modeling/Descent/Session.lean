import Descent.Problem
import Descent.Lbfgs.Run
import Descent.TrustRegion.Run
import Descent.Message
import Descent.Logging.Registry
/-!
# Sessions

An optimizer bound to a problem.  It keeps its state from run to run, and its events are
records of its logger.
-/

namespace Descent

inductive OptimizerConfig where
  | lbfgs (c : Lbfgs.Config Float)
  | trustRegion (c : TrustRegion.Config Float)

inductive OptimizerState (n : Nat) where
  | lbfgs (c : Lbfgs.Config Float) (s : Lbfgs.State Float n)
  | trustRegion (c : TrustRegion.Config Float) (s : TrustRegion.State Float)

/-- An optimizer bound to a problem of `n` variables. -/
structure Session where
  problem : Problem
  dimension : Nat
  optimizer : OptimizerState dimension

structure SessionRun where
  session : Session
  result : Except (Error Float) (RunResult Float session.dimension)
  iterate : Option (Vector Float session.dimension)
  events : Array (Event Float)

namespace Session

def create (p : Problem) (config : OptimizerConfig) : Except (Error Float) Session := do
  let n ← p.validate
  match config with
  | .lbfgs c => pure ⟨p, n, .lbfgs c (← Lbfgs.State.create c)⟩
  | .trustRegion c => pure ⟨p, n, .trustRegion c (TrustRegion.State.create c)⟩

def optimize (s : Session) (start : Tensor Float) (options : RunOptions) : SessionRun :=
  let f := s.problem.objective s.dimension
  match s.optimizer with
  | .lbfgs c state =>
    let call := Id.run (Lbfgs.optimize f c s.problem.dimension state start options)
    ⟨{ s with optimizer := .lbfgs c call.state }, call.result, call.iterate, call.events⟩
  | .trustRegion c state =>
    let call := Id.run (TrustRegion.optimize f c s.problem.dimension state start options)
    ⟨{ s with optimizer := .trustRegion c call.state }, call.result, call.iterate,
      call.events⟩

def loggerName (s : Session) : String :=
  match s.optimizer with
  | .lbfgs .. => Logging.lineMethodLogger
  | .trustRegion .. => Logging.regionMethodLogger

end Session

namespace SessionRun

def radii (r : SessionRun) : Array Float := r.events.filterMap Event.radius?

def written (r : SessionRun) (registry : Logging.Registry)
    (context : Event Float → Logging.Context) : List Logging.Written :=
  let (registry, logger) := registry.getFull r.session.loggerName
  r.events.toList.flatMap fun event =>
    let level := Logging.Level.ofSeverity event.severity
    if registry.isEnabled logger level then
      registry.emit logger level event.message (context event)
    else []

def textOn (r : SessionRun) (registry : Logging.Registry) (context : Event Float → Logging.Context)
    (sink : Logging.Sink) : String :=
  String.join (((r.written registry context).filter (·.sink = sink)).map Logging.Written.text)

end SessionRun

end Descent
