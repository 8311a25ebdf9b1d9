import Descent.Difference
/-!
# Differences in place

Central differences whose points are all made in one buffer.  It holds the point to begin
with; each coordinate in turn is moved up, moved down and put back.
-/

namespace Descent.Difference

variable {m : Type → Type} [Monad m] {α β : Type} [Scalar α] {n : Nat}

def probe (f : Vector α n → m β) (x : Vector α n) (i : Fin n) (h : α) :
    StateT (Vector α n) m (β × β) := do
  modify (·.set i (x.get i + h) i.isLt)
  let above ← f (← get)
  modify (·.set i (x.get i - h) i.isLt)
  let below ← f (← get)
  modify (·.set i (x.get i) i.isLt)
  pure (above, below)

def gradientInPlace (f : Vector α n → m α) (x : Vector α n) (ε : α) :
    m (Vector α n × Vector α n) :=
  let sweep := Vector.ofFnM fun i => do
    let h := stepAt ε (x.get i)
    let (above, below) ← probe f x i h
    pure ((above - below) / (2.0 * h))
  sweep.run x

def jacobianInPlace (g : Vector α n → m (Vector α n)) (x : Vector α n) (ε : α) :
    m (SquareMatrix α n × Vector α n) :=
  let sweep := Vector.ofFnM fun j => do
    let h := stepAt ε (x.get j)
    let (above, below) ← probe g x j h
    pure ((above - below).map (· / (2.0 * h)))
  sweep.run x

def hessianInPlace (g : Vector α n → m (Vector α n)) (x : Vector α n) (ε : α) :
    m (SquareMatrix α n × Vector α n) := do
  let (columns, buffer) ← jacobianInPlace g x ε
  pure (SquareMatrix.symmetricPart columns.transpose, buffer)

end Descent.Difference
