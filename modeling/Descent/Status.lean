import Descent.Error
/-!
# Status of a run

Where an optimizer stands, and why a run ended.
-/

namespace Descent

inductive Status where
  | uninitialized
  | running
  | converged
  | iterationLimit
  | lineSearchFailed
  | stagnation
  deriving DecidableEq

namespace Status

def name : Status → String
  | uninitialized => "uninitialized"
  | running => "running"
  | converged => "converged"
  | iterationLimit => "iteration_limit"
  | lineSearchFailed => "line_search_failed"
  | stagnation => "stagnation"

def all : List Status :=
  [uninitialized, running, converged, iterationLimit, lineSearchFailed, stagnation]

def label (s : Status) : String := s.name.toUpper

def ofName {α : Type} (name : String) : Except (Error α) Status :=
  match all.find? (·.name = name) with
  | some s => .ok s
  | none => .error .unknownName

def isTerminal : Status → Bool
  | uninitialized | running => false
  | _ => true

def isSuccess (s : Status) : Bool := s = converged

end Status

/-- Why a run ended, with the values its message shows. -/
inductive Ending (α : Type) where
  | converged
  | iterationLimit (limit : Nat)
  | lineSearchFailed (fault : SearchFault)
  | stagnation (leastRadius : α)

def Ending.status {α : Type} : Ending α → Status
  | converged => .converged
  | iterationLimit _ => .iterationLimit
  | lineSearchFailed _ => .lineSearchFailed
  | stagnation _ => .stagnation

theorem Ending.isTerminal_status {α : Type} (e : Ending α) : e.status.isTerminal = true := by
  cases e <;> rfl

end Descent
