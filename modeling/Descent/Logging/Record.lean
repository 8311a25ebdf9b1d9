import Descent.Logging.Level
import Descent.Decimal.Notation
import Descent.Text.Quoted
/-!
# Records

What is reported, and everything that a line may show of it: beside the message also where and
when it was made, which only the runtime knows.
-/

namespace Descent.Logging

/-- What a record tells under one name. -/
inductive Attribute where
  | text (s : String)
  | whole (k : Int)
  | real (x : Float)
  /-- Neither text nor number; there is only what it looks like. -/
  | other (shown : String)

abbrev Instant := { x : Float // x.isFinite = true }

/-- What the runtime adds to a record that no exception belongs to. -/
structure Context where
  /-- The message before its arguments are put in. -/
  template : String
  arguments : String
  pathname : String
  filename : String
  unit : String
  line : Int
  function : String
  created : Instant
  milliseconds : Instant
  sinceStart : Instant
  time : String
  thread : Int
  threadName : String
  process : Int
  processName : String
  /-- What only some runtimes tell. -/
  more : List (String × Attribute)
  /-- What the table of all attributes looks like. -/
  table : String

structure Record where
  name : String
  level : Level
  message : String
  context : Context

namespace Attribute

def absent : Attribute := .other "None"

def shown : Attribute → String
  | text s => s
  | whole k => toString k
  | real x => Decimal.shortest x
  | other s => s

def quoted : Attribute → String
  | text s => Text.quoted s
  | a => a.shown

/-- The only character of a text, or the one with a number. -/
def character? : Attribute → Option Char
  | text s => match s.toList with
    | [c] => some c
    | _ => none
  | whole k => if 0 ≤ k ∧ k.toNat.isValidChar then some (.ofNat k.toNat) else none
  | _ => none

def whole? : Attribute → Option Int
  | whole k => some k
  | _ => none

def wholePart (x : Float) : Int :=
  match Decimal.Binary.ofFloat x with
  | .finite isNegative significand exponent =>
    let k := (Decimal.Ratio.ofPower significand 2 exponent).floor
    if isNegative then -k else k
  | _ => 0

def truncated? : Attribute → Option Int
  | whole k => some k
  | real x => if x.isFinite then some (wholePart x) else none
  | _ => none

def real? : Attribute → Option Float
  | real x => some x
  | whole k => if (Float.ofInt k).isFinite then some (Float.ofInt k) else none
  | _ => none

end Attribute

namespace Record

def common (r : Record) : List (String × Attribute) :=
  [("name", .text r.name), ("msg", .text r.context.template), ("args", .other r.context.arguments),
   ("levelname", .text r.level.text), ("levelno", .whole r.level),
   ("pathname", .text r.context.pathname), ("filename", .text r.context.filename),
   ("module", .text r.context.unit), ("exc_info", .absent), ("exc_text", .absent),
   ("stack_info", .absent), ("lineno", .whole r.context.line),
   ("funcName", .text r.context.function), ("created", .real r.context.created),
   ("msecs", .real r.context.milliseconds), ("relativeCreated", .real r.context.sinceStart),
   ("thread", .whole r.context.thread), ("threadName", .text r.context.threadName),
   ("processName", .text r.context.processName), ("process", .whole r.context.process),
   ("message", .text r.message), ("asctime", .text r.context.time)]

def attribute? (r : Record) : Option String → Option Attribute
  | some key => (r.common ++ r.context.more).lookup key
  | none => some (.other r.context.table)

end Record

end Descent.Logging
