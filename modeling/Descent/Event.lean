import Descent.Status
/-!
# Events of a run

What a run has to report while it goes on, with the severity of each report.
-/

namespace Descent

inductive Severity where
  | debug
  | info
  | warning
  | error
  | critical
  deriving DecidableEq

inductive Event (α : Type) where
  /-- A line search failed, and steepest descent is tried instead. -/
  | searchRetried (iteration : Nat) (fault : SearchFault)
  /-- An iteration along a line is complete. -/
  | lineStep (iteration : Nat) (value gradientNorm step : α) (pairs : Nat)
  | lineFinished (status : Status) (iterations : Nat) (value gradientNorm : α)
  /-- An iteration within a trust region is complete. -/
  | regionStep (iteration : Nat) (value gradientNorm ratio radius : α) (isAccepted : Bool)
  /-- A step was rejected at the least radius. -/
  | regionCollapsed (iteration : Nat)
  | regionFinished (status : Status) (iterations : Nat) (value gradientNorm radius : α)

def Event.severity {α : Type} : Event α → Severity
  | searchRetried .. | regionCollapsed .. => .warning
  | lineStep .. | regionStep .. => .debug
  | lineFinished .. | regionFinished .. => .info

def Event.radius? {α : Type} : Event α → Option α
  | regionStep _ _ _ _ radius _ => some radius
  | _ => none

end Descent
