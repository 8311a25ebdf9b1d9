import Descent.Objective
import Descent.Objective.Buffer
/-!
# The chained Rosenbrock function

`f x = ∑ 100 (xᵢ² - xᵢ₊₁)² + (xᵢ - 1)²` over neighbouring coordinates, with its
gradient.  Its Hessian is reported as zero: it serves methods of first order.
-/

namespace Descent.Rosenbrock

variable {α : Type} [Scalar α]

def coupling (a b : α) : α := a * a - b

def link (a b : α) : α := 100.0 * (coupling a b * coupling a b) + (a - 1) * (a - 1)

def chain : List α → α
  | a :: b :: rest => link a b + chain (b :: rest)
  | _ => 0

def headSlope (a b : α) : α := 400.0 * a * coupling a b + 2.0 * (a - 1)

def tailSlope (a b : α) : α := 200.0 * coupling a b

def slopes {n : Nat} (slope : α → α → α) (neighbours : (i : Nat) → i + 1 < n → α × α) :
    Vector α (n - 1) :=
  Vector.ofFn fun i =>
    let (a, b) := neighbours i (Nat.add_lt_of_lt_sub i.isLt)
    slope a b

/-- Writes the gradient over a buffer: zeros, then the slopes by first neighbours, then those
by second neighbours taken away, one place further on. -/
def writeGradient {n : Nat} (neighbours : (i : Nat) → i + 1 < n → α × α) (out : Vector α n) :
    Vector α n :=
  let cleared := out.map fun _ => 0
  let headed := Buffer.overwrite 0 (slopes headSlope neighbours) cleared
  Buffer.combine (· - ·) 1 (slopes tailSlope neighbours) headed

def value {n : Nat} (x : Vector α n) : α := chain x.toList

def gradientInto {n : Nat} (x out : Vector α n) : Vector α n :=
  writeGradient (fun i h => (x[i], x[i + 1])) out

def gradient {n : Nat} (x : Vector α n) : Vector α n := gradientInto x (Vector.replicate n 0)

def name : String := "ExtendedRosenbrockFunction"

def objective {m : Type → Type} [Monad m] (n : Nat) : Objective m α n :=
  .ofFunctions name value gradient fun _ => SquareMatrix.zero

/-- The gradient in `n` coordinates at a point of any length: a point of two
coordinates has one term, which then stands at every place. -/
def gradientAt (n : Nat) (x : Array α) : Except (Error α) (Vector α n) :=
  if h : x.size - 1 = n - 1 then
    .ok <| writeGradient (fun i hi =>
      have bound : i + 1 < x.size := by omega
      (x[i], x[i + 1])) (Vector.replicate n 0)
  else if h : x.size = 2 then
    .ok <| writeGradient (fun _ _ => (x[0], x[1])) (Vector.replicate n 0)
  else .error .shapeMismatch

def dimension (n : Int) : Except (Error α) Nat :=
  if n < 2 ∨ n % 2 ≠ 0 then .error (.setting (.oddDimension n)) else .ok n.toNat

def start (n : Nat) : Vector α n :=
  Vector.ofFn fun i => if i.val % 2 = 0 then -1.2 else 1

def drawBounds : Int × Int := (2, 101)

def ofDraw (half : Int) : Except (Error α) Nat := dimension (2 * half)

@[simp] theorem chain_nil : chain ([] : List α) = 0 := rfl

@[simp] theorem chain_singleton (a : α) : chain [a] = 0 := rfl

theorem chain_cons_cons (a b : α) (rest : List α) :
    chain (a :: b :: rest) = link a b + chain (b :: rest) := rfl

end Descent.Rosenbrock
