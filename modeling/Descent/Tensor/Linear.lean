import Descent.Tensor
import Descent.Linear.Definite
import Descent.Linear.Solve
import Descent.Consistency
/-!
# Linear algebra on tensors

The matrix routines for arguments whose shape is not known in advance.  Where the
shapes fit they are the routines on matrices; the rest says which misfits are errors,
which are answers, and which stretch to a matrix.
-/

namespace Descent.Tensor

variable {α : Type} [Scalar α]

/-- Positive definiteness of the symmetric part; what is no square matrix has none. -/
def isPosDef (t : Tensor α) : Except (Error α) Bool := do
  let sum ← zipWith (· + ·) t t.transpose
  match (sum.map (0.5 * ·)).toSquare? with
  | some ⟨_, A⟩ => pure A.hasCholesky
  | none => pure false

/-- The diagonal of a matrix; a single axis stands for a diagonal itself. -/
def diagonal (t : Tensor α) : Except (Error α) (List α) :=
  match t.shape with
  | [_] => .ok t.entries.toList
  | [m, n] => .ok ((List.range (min m n)).map fun i => t.get [i, i])
  | _ => .error .shapeMismatch

def scaledIdentity (n : Nat) (scale : α) : Tensor α :=
  ofFn [n, n] fun indices =>
    match indices with
    | [i, j] => scale * (if i = j then 1 else 0)
    | _ => 0

def columns (t : Tensor α) (rows count : Nat) : List (Vector α rows) :=
  (List.range count).map fun j => Vector.ofFn fun i => t.get [i, j]

def ofColumns {rows : Nat} (columns : List (Vector α rows)) : Tensor α :=
  ofFn [rows, columns.length] fun indices =>
    match indices with
    | [i, j] => (do (← columns[j]?)[i]?).getD 0
    | _ => 0

def solve (A b : Tensor α) : Except (Error α) (Tensor α) :=
  match A.toSquare? with
  | none => .error .singular
  | some ⟨n, matrix⟩ =>
    match b.shape with
    | [_] =>
      match b.toVector? n with
      | some side => ofVector <$> matrix.solve side
      | none => .error .shapeMismatch
    | [rows, count] =>
      if rows = n then ofColumns <$> (columns b n count).mapM matrix.solve
      else .error .shapeMismatch
    | _ => .error .shapeMismatch

def addRidge (A : Tensor α) (ridge : α) : Except (Error α) (Tensor α) := do
  let scale ← SquareMatrix.ridgeScale (← diagonal A)
  zipWith (· + ·) A (scaledIdentity (A.shape.headD 0) (ridge * scale))

def ridgeSolve (A b : Tensor α) (ridge : α) : Except (Error α) (Tensor α) :=
  match solve A b with
  | .error .singular => do solve (← addRidge A ridge) b
  | result => result

def isSymmetric (t : Tensor α) (tolerance : α) : Except (Error α) Bool :=
  match t.toSquare? with
  | some ⟨_, A⟩ => A.isSymmetric tolerance
  | none => .ok false

def requireSymmetric (t : Tensor α) (tolerance : α) : Except (Error α) Unit := do
  if ← t.isSymmetric tolerance then pure ()
  else throw (.argument (.notSymmetric tolerance))

end Descent.Tensor
