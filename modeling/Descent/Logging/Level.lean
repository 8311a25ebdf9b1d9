import Descent.Event
import Descent.Text.Case
/-!
# Levels

How important a record is, and from which importance on records are kept.  A level is a
number; some numbers have names.
-/

namespace Descent.Logging

abbrev Level := Int

namespace Level

def critical : Level := 50

def error : Level := 40

def warning : Level := 30

def info : Level := 20

def debug : Level := 10

/-- No level of its own: the level of an ancestor counts. -/
def notSet : Level := 0

def names : List (String × Level) :=
  [("CRITICAL", critical), ("FATAL", critical), ("ERROR", error), ("WARNING", warning),
   ("WARN", warning), ("INFO", info), ("DEBUG", debug), ("NOTSET", notSet)]

/-- The level of a name in either case; an unknown name stands for a warning.  Two names that are
not unknown stand for no level, one of them for a text and the other for a table. -/
def ofName {α : Type} (name : String) : Except (Error α) Level :=
  let name := Text.uppercase name
  if name = "BASIC_FORMAT" then .error .unknownName
  else if name = "_STYLES" then .error .wrongType
  else .ok ((names.lookup name).getD warning)

def text (level : Level) : String :=
  if level = critical then "CRITICAL"
  else if level = error then "ERROR"
  else if level = warning then "WARNING"
  else if level = info then "INFO"
  else if level = debug then "DEBUG"
  else if level = notSet then "NOTSET"
  else s!"Level {level}"

def ofSeverity : Severity → Level
  | .debug => debug
  | .info => info
  | .warning => warning
  | .error => error
  | .critical => critical

end Level

end Descent.Logging
