import Descent.Linear.SquareMatrix
/-!
# Central differences

Derivatives from values at `x ± hᵢ eᵢ`, where the step `hᵢ` grows with the coordinate.
The function may have effects; it is asked first above and then below each coordinate.
-/

namespace Descent.Difference

variable {m : Type → Type} [Monad m] {α : Type} [Scalar α] {n : Nat}

def gradientStep : α := 1e-6

def hessianStep : α := 1e-5

def checkStep (ε : α) : Except (Error α) Unit :=
  if ε ≤ 0 then .error (.argument .differenceStep) else .ok ()

def stepAt (ε a : α) : α := ε * Scalar.larger 1 (Scalar.abs a)

def shift (x : Vector α n) (i : Fin n) (h : α) : Vector α n := x.set i (x.get i + h) i.isLt

def shiftBack (x : Vector α n) (i : Fin n) (h : α) : Vector α n := x.set i (x.get i - h) i.isLt

def gradient (f : Vector α n → m α) (x : Vector α n) (ε : α) : m (Vector α n) :=
  Vector.ofFnM fun i => do
    let h := stepAt ε (x.get i)
    let above ← f (shift x i h)
    let below ← f (shiftBack x i h)
    pure ((above - below) / (2.0 * h))

/-- The difference quotients of a gradient, one column per coordinate. -/
def jacobianColumns (g : Vector α n → m (Vector α n)) (x : Vector α n) (ε : α) :
    m (SquareMatrix α n) :=
  Vector.ofFnM fun j => do
    let h := stepAt ε (x.get j)
    let above ← g (shift x j h)
    let below ← g (shiftBack x j h)
    pure ((above - below).map (· / (2.0 * h)))

def hessian (g : Vector α n → m (Vector α n)) (x : Vector α n) (ε : α) :
    m (SquareMatrix α n) :=
  (fun columns => SquareMatrix.symmetricPart columns.transpose) <$> jacobianColumns g x ε

def evaluations (n : Nat) : Nat := 2 * n

end Descent.Difference
