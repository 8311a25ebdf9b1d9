import Descent.Logging.Pattern
/-!
# The registry of loggers

Loggers have dotted names and form a tree.  The registry hands out loggers below the
package's own name, configures each when it is first asked for, and keeps all of them at
the most recent settings.
-/

namespace Descent.Logging

abbrev Sink := String

def standardError : Sink := "stderr"

structure Handler where
  level : Level
  pattern : Pattern
  sink : Sink

/-- A node of the tree.  Records also go to the ancestors' handlers if it propagates. -/
structure Logger where
  name : String
  level : Level
  isPropagating : Bool
  handlers : List Handler

structure Settings where
  level : Level
  pattern : Pattern
  sink : Sink

/-- All loggers that exist, the names of those handed out, and the current settings. -/
structure Registry where
  root : Logger
  loggers : List Logger
  cached : List String
  settings : Settings

structure Written where
  sink : Sink
  text : String

/-- What a handler writes of a record.  If its pattern cannot show it, nothing goes to the sink; it
is the runtime that complains then. -/
def Handler.write? (h : Handler) (record : Record) : Option Written :=
  (record.render? h.pattern).map fun line => ⟨h.sink, line ++ "\n"⟩

def packageName : String := "unconopt"

def lineMethodLogger : String := "unconopt.optimize.quasi_newton"

def regionMethodLogger : String := "unconopt.optimize.trust_region"

def fullName (name : Option String) : String :=
  match name with
  | none => packageName
  | some name =>
    if name = packageName || (packageName ++ ".").isPrefixOf name then name
    else packageName ++ "." ++ name

namespace Settings

def standard (level : Level) : Settings := ⟨level, Pattern.defaultPattern, standardError⟩

def handler (s : Settings) : Handler := ⟨s.level, s.pattern, s.sink⟩

def logger (s : Settings) (name : String) : Logger := ⟨name, s.level, false, [s.handler]⟩

end Settings

namespace Registry

def find? (r : Registry) (name : String) : Option Logger := r.loggers.find? (·.name = name)

def put (r : Registry) (l : Logger) : Registry :=
  if r.loggers.any (·.name = l.name) then
    { r with loggers := r.loggers.map fun k => if k.name = l.name then l else k }
  else { r with loggers := r.loggers ++ [l] }

/-- The logger of a full name; one without handlers is configured when it is first handed
out. -/
def getFull (r : Registry) (name : String) : Registry × Logger :=
  let existing := (r.find? name).getD ⟨name, Level.notSet, true, []⟩
  if r.cached.contains name then (r, existing)
  else
    let l := if existing.handlers.isEmpty then r.settings.logger name else existing
    ({ r.put l with cached := r.cached ++ [name] }, l)

def get (r : Registry) (name : Option String) : Registry × Logger := r.getFull (fullName name)

def withLevel (level : Level) : Registry :=
  ⟨⟨"root", Level.warning, false, []⟩, [], [], Settings.standard level⟩

def fresh : Registry :=
  let r := ((withLevel Level.warning).getFull lineMethodLogger).1
  (r.getFull regionMethodLogger).1

def mapCached (r : Registry) (change : Logger → Logger) : Registry :=
  { r with loggers := r.loggers.map fun l => if r.cached.contains l.name then change l else l }

def setLevel (r : Registry) (level : Level) : Registry :=
  let r := r.mapCached fun l =>
    { l with level := level, handlers := l.handlers.map fun h => { h with level := level } }
  { r with settings := { r.settings with level := level } }

/-- Gives every logger, and new ones, a single handler with the given settings. -/
def configure (r : Registry) (settings : Settings) : Registry :=
  let r := r.mapCached fun l => { l with level := settings.level, handlers := [settings.handler] }
  { r with settings := settings }

/-- Attaches a handler for bare messages to the logger of exactly this name; the empty name
is the root's. -/
def attach (r : Registry) (name : String) (sink : Sink) : Registry :=
  let add (l : Logger) : Logger :=
    { l with handlers := l.handlers ++ [⟨Level.notSet, Pattern.messageOnly, sink⟩] }
  if name = "" || name = r.root.name then { r with root := add r.root }
  else r.put (add ((r.find? name).getD ⟨name, Level.notSet, true, []⟩))

/-- The names under which an ancestor is looked for, nearest first: what stands before a
dot.  A dot right before the one found last is passed over. -/
def ancestorNames (name : String) : List String :=
  go name.length name.toList.reverse
where
  /-- `reversed` is read from its end; the text before each dot is a name. -/
  go : Nat → List Char → List String
    | 0, _ => []
    | fuel + 1, reversed =>
      match reversed.dropWhile (· ≠ '.') with
      | _ :: c :: rest => String.ofList (c :: rest).reverse :: go fuel rest
      | _ => []

def lineage (r : Registry) : (fuel : Nat) → Logger → List Logger
  | 0, l => [l, r.root]
  | fuel + 1, l =>
    match (ancestorNames l.name).findSome? r.find? with
    | some parent => l :: r.lineage fuel parent
    | none => [l, r.root]

def ancestry (r : Registry) (l : Logger) : List Logger := r.lineage l.name.length l

def effectiveLevel (r : Registry) (l : Logger) : Level :=
  (((r.ancestry l).find? (·.level ≠ Level.notSet)).map Logger.level).getD Level.notSet

def isEnabled (r : Registry) (l : Logger) (level : Level) : Bool :=
  decide (Level.notSet < level) && decide (r.effectiveLevel l ≤ level)

def handlersOf : List Logger → List Handler
  | [] => []
  | l :: ancestors => l.handlers ++ if l.isPropagating then handlersOf ancestors else []

/-- What a record leads to.  Where no handler sees it, a warning still goes to standard
error, as a bare message. -/
def emit (r : Registry) (l : Logger) (level : Level) (message : String) (context : Context) :
    List Written :=
  if r.isEnabled l level then
    match handlersOf (r.ancestry l) with
    | [] => if Level.warning ≤ level then [⟨standardError, message ++ "\n"⟩] else []
    | handlers =>
      (handlers.filter (·.level ≤ level)).filterMap (·.write? ⟨l.name, level, message, context⟩)
  else []

def cachedLevels (r : Registry) : List (String × Level) :=
  r.cached.map fun name => (name, ((r.find? name).map Logger.level).getD Level.notSet)

end Registry

end Descent.Logging
