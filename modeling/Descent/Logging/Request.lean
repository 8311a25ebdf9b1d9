import Descent.Logging.Registry
/-!
# Requests to the registry

What the registry is asked for: a logger, a level for all loggers, or all their settings.
Levels and patterns may be given as texts; one that cannot be read changes nothing.
-/

namespace Descent.Logging

inductive LevelRequest where
  | number (level : Level)
  | name (text : String)

structure SettingsRequest where
  level : LevelRequest := .number Level.warning
  pattern : Option String := none
  sink : Sink := standardError

inductive Request where
  | get (name : Option String)
  | setLevel (level : LevelRequest)
  | configure (settings : SettingsRequest)

def LevelRequest.level : LevelRequest → Except (Error Float) Level
  | number level => .ok level
  | name text => Level.ofName text

/-- The pattern is read before the level. -/
def SettingsRequest.settings (s : SettingsRequest) : Except (Error Float) Settings := do
  let pattern ← match s.pattern with
    | some text => Pattern.ofText text
    | none => pure Pattern.defaultPattern
  pure ⟨← s.level.level, pattern, s.sink⟩

namespace Registry

def answer (r : Registry) : Request → Except (Error Float) Registry
  | .get name => .ok (r.get name).1
  | .setLevel level => r.setLevel <$> level.level
  | .configure settings => r.configure <$> settings.settings

def handle (r : Registry) (request : Request) : Registry :=
  match r.answer request with
  | .ok r => r
  | .error _ => r

end Registry

end Descent.Logging
