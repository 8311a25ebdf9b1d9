import Descent.Text.Case
/-!
# Debug mode

A switch that can be set, and set for a while: whoever enters a scope gets the former
value back on leaving it, in whatever way.
-/

namespace Descent

/-- The switch, and the values to restore when the open scopes are left, innermost first. -/
structure DebugMode where
  isEnabled : Bool
  former : List Bool

namespace DebugMode

def off : DebugMode := ⟨false, []⟩

def set (d : DebugMode) (enabled : Bool) : DebugMode := { d with isEnabled := enabled }

def enter (d : DebugMode) (enabled : Bool) : DebugMode := ⟨enabled, d.isEnabled :: d.former⟩

def leave (d : DebugMode) : DebugMode :=
  match d.former with
  | [] => d
  | value :: rest => ⟨value, rest⟩

def affirmatives : List String := ["1", "true", "yes", "on"]

def isRequested (setting : Option String) : Bool :=
  match setting with
  | some word => affirmatives.contains (Text.lowercase word)
  | none => false

theorem leave_enter (d : DebugMode) (enabled : Bool) : (d.enter enabled).leave = d := rfl

end DebugMode

end Descent
