import Descent.Objective
import Descent.Objective.Buffer
/-!
# The Wood function

A function of four variables with its minimum, zero, at `(1, 1, 1, 1)`.  Its Hessian
is reported as zero.
-/

namespace Descent.Wood

variable {α : Type} [Scalar α]

def sq (a : α) : α := a * a

def valueOf (a b c d : α) : α :=
  100.0 * sq (sq a - b) + sq (1 - a) + 90.0 * sq (sq c - d) + sq (1 - c)
    + 10.1 * (sq (1 - b) + sq (1 - d)) + 19.8 * (1 - b) * (1 - d)

def gradientOf (a b c d : α) : Vector α 4 :=
  #v[400.0 * a * (sq a - b) + 2.0 * (a - 1),
    200.0 * (b - sq a) + 20.2 * (b - 1) + 19.8 * (d - 1),
    360.0 * c * (sq c - d) + 2.0 * (c - 1),
    180.0 * (d - sq c) + 20.2 * (d - 1) + 19.8 * (b - 1)]

def value (x : Vector α 4) : α := valueOf x[0] x[1] x[2] x[3]

def writeGradient {n : Nat} (a b c d : α) (out : Vector α n) : Vector α n :=
  Buffer.overwrite 0 (gradientOf a b c d) out

def gradientInto (x out : Vector α 4) : Vector α 4 := writeGradient x[0] x[1] x[2] x[3] out

def gradient (x : Vector α 4) : Vector α 4 := gradientInto x (Vector.replicate 4 0)

def name : String := "WoodFunction"

def objective {m : Type → Type} [Monad m] : Objective m α 4 :=
  .ofFunctions name value gradient fun _ => SquareMatrix.zero

def read (x : Array α) : Except (Error α) (α × α × α × α) :=
  if h : 4 ≤ x.size then .ok (x[0], x[1], x[2], x[3]) else .error .indexOutOfRange

def valueAt (x : Array α) : Except (Error α) α := do
  let (a, b, c, d) ← read x
  pure (valueOf a b c d)

/-- The gradient written into a buffer of `n` entries; entries past the fourth are zero. -/
def gradientAt (n : Nat) (x : Array α) : Except (Error α) (Vector α n) := do
  let (a, b, c, d) ← read x
  if n < 4 then throw .indexOutOfRange
  pure (writeGradient a b c d (Vector.replicate n 0))

def start : Vector α 4 := #v[-3.0, -1, -3.0, -1]

end Descent.Wood
