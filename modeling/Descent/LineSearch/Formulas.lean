import Descent.Expression
import Descent.Objective.Buffer
import Descent.LineSearch.Armijo
import Descent.LineSearch.Wolfe
/-!
# Line searches on formulas

The searches for an objective given by formulas, at points whose length is not known in
advance.  Point and direction combine if their lengths agree or one of them is a single
number.
-/

namespace Descent.LineSearch

def pointAt (x direction : Array Float) (step : Float) : Except (Error Float) (Array Float) := do
  let n := if x.size = 1 then direction.size else x.size
  let x ← Buffer.vector n x
  let direction ← Buffer.vector n direction
  pure (x + step * direction).toArray

def product (a b : Array Float) : Except (Error Float) Float :=
  if h : b.size = a.size then .ok (dot a.toVector (b.toVector.cast h)) else .error .shapeMismatch

def ray (value : Expression) (gradient : List Expression) (x direction : Array Float) :
    Ray (Except (Error Float)) Float where
  value step := do value.eval (← pointAt x direction step)
  slope step := do
    product (← Expression.evalAll (← pointAt x direction step) gradient) direction

def answer (result : SearchResult Float) : Except (Error Float) (Float × Nat) :=
  match result with
  | .ok found => .ok found
  | .error failure => .error (.lineSearch failure)

def armijo (value : Expression) (x direction gradient : Array Float) (start : Option Float)
    (settings : Armijo.Settings Float) : Except (Error Float) (Float × Nat) := do
  settings.check
  answer (← Armijo.searchFrom (ray value [] x direction).value settings start (value.eval x)
    (product gradient direction))

def wolfe (value : Expression) (gradient : List Expression) (x direction : Array Float)
    (start : Option Float) (startGradient : Option (Array Float))
    (settings : Wolfe.Settings Float) : Except (Error Float) (Float × Nat) := do
  settings.check
  let ray := ray value gradient x direction
  let slope := match startGradient with
    | some g => product g direction
    | none => ray.slope 0
  answer (← Wolfe.search ray settings start slope)

end Descent.LineSearch
