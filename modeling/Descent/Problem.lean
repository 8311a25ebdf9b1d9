import Descent.Expression.Difference
import Descent.Start
import Descent.Objective.Buffer
import Descent.Objective.Quadratic
import Descent.Objective.Rosenbrock
import Descent.Objective.Wood
/-!
# Problems

The functions that can be minimized, as their caller hands them over: by formulas, by
matrices, or by name.  Their operations take points of any length and fill buffers of
any size; with the size of the point fixed they form an objective.
-/

namespace Descent

inductive HessianSource where
  | formulas (rows : List (List Expression))
  | differences

/-- A function given by formulas.  Without a gradient, differences stand in for it; without
a Hessian, zero does. -/
structure Formulas where
  dimension : Nat
  value : Expression
  gradient : Option (List Expression)
  hessian : Option HessianSource

inductive Member where
  | dimension
  | value
  | gradient
  | hessian
  deriving DecidableEq

inductive Problem where
  | formulas (f : Formulas)
  | quadratic {n : Nat} (q : Quadratic Float n)
  | rosenbrock (n : Nat)
  | wood
  /-- The zero function, of a stated dimension, lacking some of its operations. -/
  | incomplete (dimension : Dimension) (missing : List Member)

namespace Formulas

def create (dimension : Int) (value : Expression) (gradient : Option (List Expression))
    (hessian : Option HessianSource) : Except (Error Float) Formulas :=
  if dimension < 1 then .error (.setting .dimensionTooSmall)
  else .ok ⟨dimension.toNat, value, gradient, hessian⟩

def gradientAt (f : Formulas) (n : Nat) (x : Array Float) :
    Except (Error Float) (Vector Float n) := do
  match f.gradient with
  | some es => Buffer.vector n (← Expression.evalAll x es)
  | none => Buffer.vector n (← f.value.gradientAt x Difference.gradientStep).toArray

def hessianAt (f : Formulas) (n : Nat) (x : Array Float) :
    Except (Error Float) (SquareMatrix Float n) := do
  match f.hessian with
  | none => pure SquareMatrix.zero
  | some (.formulas rows) => Buffer.matrix n (← rows.mapM (Expression.evalAll x)).toArray
  | some .differences =>
    let H ← Expression.hessianAt (f.gradient.getD []) x Difference.hessianStep
    Buffer.matrix n (H.map Vector.toArray).toArray

end Formulas

namespace Problem

def name : Problem → String
  | formulas _ => "CallableFunction"
  | quadratic _ => Quadratic.name
  | rosenbrock _ => Rosenbrock.name
  | wood => Wood.name
  | incomplete .. => "PartialFunction"

def dimension : Problem → Dimension
  | formulas f => .whole f.dimension
  | @quadratic n _ => .whole n
  | rosenbrock n => .whole n
  | wood => .whole 4
  | incomplete d _ => d

def isComplete : Problem → Bool
  | incomplete _ missing => missing.isEmpty
  | _ => true

def validate (p : Problem) : Except (Error Float) Nat :=
  if p.isComplete then p.dimension.positive else .error (.setting (.missingMembers p.name))

def valueAt (p : Problem) (x : Array Float) : Except (Error Float) Float :=
  match p with
  | formulas f => f.value.eval x
  | @quadratic n q =>
    match Tensor.vector? n x with
    | some x => .ok (q.value x)
    | none => .error .shapeMismatch
  | rosenbrock _ => .ok (Rosenbrock.chain x.toList)
  | wood => Wood.valueAt x
  | incomplete .. => .ok 0

def gradientAt (p : Problem) (n : Nat) (x : Array Float) : Except (Error Float) (Vector Float n) :=
  match p with
  | formulas f => f.gradientAt n x
  | @quadratic k q =>
    match Tensor.vector? k x with
    | some x =>
      match Tensor.vector? n (q.gradient x).toArray with
      | some g => .ok g
      | none => .error .shapeMismatch
    | none => .error .shapeMismatch
  | rosenbrock _ => Rosenbrock.gradientAt n x
  | wood => Wood.gradientAt n x
  | incomplete .. => .ok (Vector.replicate n 0)

def hessianAt (p : Problem) (n : Nat) (x : Array Float) :
    Except (Error Float) (SquareMatrix Float n) :=
  match p with
  | formulas f => f.hessianAt n x
  | quadratic q => Buffer.matrix n (q.matrix.map Vector.toArray).toArray
  | _ => .ok SquareMatrix.zero

def objective (p : Problem) (n : Nat) : Objective Id Float n where
  name := p.name
  value x := p.valueAt x.toArray
  gradient x := p.gradientAt n x.toArray
  hessian x := p.hessianAt n x.toArray

def start : Problem → Except (Error Float) (Array Float)
  | rosenbrock n => .ok (Rosenbrock.start n).toArray
  | wood => .ok Wood.start.toArray
  | _ => .error .unknownName

def minimizer : Problem → Except (Error Float) (Array Float)
  | quadratic q => Vector.toArray <$> q.minimizer
  | _ => .error .unknownName

end Problem

end Descent
