import Descent.Error
/-!
# Expressions

Objectives written down as formulas in the coordinates of a point, evaluated in binary64
in the order they are written.
-/

namespace Descent

inductive UnaryOperation where
  | neg
  | abs
  | square
  | sqrt
  | exp
  | log
  | sin
  | cos

inductive BinaryOperation where
  | add
  | sub
  | mul
  | div

/-- A formula; the last form chooses between two by comparing two others. -/
inductive Expression where
  | constant (v : Float)
  | coordinate (i : Nat)
  | unary (op : UnaryOperation) (a : Expression)
  | binary (op : BinaryOperation) (a b : Expression)
  | ifLess (a b smaller otherwise : Expression)

def UnaryOperation.apply : UnaryOperation → Float → Float
  | neg, a => -a
  | abs, a => a.abs
  | square, a => a * a
  | sqrt, a => a.sqrt
  | exp, a => a.exp
  | log, a => a.log
  | sin, a => a.sin
  | cos, a => a.cos

def BinaryOperation.apply : BinaryOperation → Float → Float → Float
  | add, a, b => a + b
  | sub, a, b => a - b
  | mul, a, b => a * b
  | div, a, b => a / b

namespace Expression

def eval (x : Array Float) : Expression → Except (Error Float) Float
  | constant v => .ok v
  | coordinate i =>
    match x[i]? with
    | some v => .ok v
    | none => .error .indexOutOfRange
  | unary op a => do pure (op.apply (← eval x a))
  | binary op a b => do
    let left ← eval x a
    let right ← eval x b
    pure (op.apply left right)
  | ifLess a b smaller otherwise => do
    let left ← eval x a
    let right ← eval x b
    if left < right then eval x smaller else eval x otherwise

def chain (op : BinaryOperation) : Expression → List Expression → Expression
  | first, rest => rest.foldl (binary op) first

def evalAll (x : Array Float) (es : List Expression) : Except (Error Float) (Array Float) := do
  pure (← es.mapM (eval x)).toArray

end Expression

end Descent
