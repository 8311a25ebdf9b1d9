import Descent.Expression
import Descent.Difference.InPlace
import Descent.Objective.Buffer
/-!
# Differences of formulas
-/

namespace Descent.Expression

def gradientAt (f : Expression) (x : Array Float) (ε : Float) :
    Except (Error Float) (Vector Float x.size) := do
  Difference.checkStep ε
  let (gradient, _) ← Difference.gradientInPlace (fun v => f.eval v.toArray) x.toVector ε
  pure gradient

def hessianAt (gradient : List Expression) (x : Array Float) (ε : Float) :
    Except (Error Float) (SquareMatrix Float x.size) := do
  Difference.checkStep ε
  let (hessian, _) ← Difference.hessianInPlace
    (fun v => do Buffer.vector x.size (← evalAll v.toArray gradient)) x.toVector ε
  pure hessian

end Descent.Expression
