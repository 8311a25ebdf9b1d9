import Descent.Linear.SquareMatrix
/-!
# Positive definiteness

The Cholesky factorisation, one pivot at a time: the first pivot must not be zero
or negative, and the rest of the factorisation is that of the Schur complement.
-/

namespace Descent.SquareMatrix

variable {α : Type} [Scalar α]

def schurComplement {n : Nat} (A : SquareMatrix α (n + 1)) : SquareMatrix α n :=
  let root := Scalar.sqrt (first (first A))
  let column : Vector α n := Vector.ofFn fun i => first (A.get i.succ) / root
  ofFn fun i j => (A.get i.succ).get j.succ - column.get i * column.get j

/-- Whether every pivot of the factorisation passes; only the part of the matrix on
and below the diagonal decides. -/
def hasCholesky : {n : Nat} → SquareMatrix α n → Bool
  | 0, _ => true
  | _ + 1, A => if first (first A) ≤ 0 then false else hasCholesky (schurComplement A)

/-- Positive definiteness of the symmetric part. -/
def isPosDef {n : Nat} (A : SquareMatrix α n) : Bool := hasCholesky (symmetricPart A)

@[simp] theorem hasCholesky_zero (A : SquareMatrix α 0) : hasCholesky A = true := rfl

theorem hasCholesky_succ {n : Nat} (A : SquareMatrix α (n + 1)) :
    hasCholesky A = if first (first A) ≤ 0 then false else hasCholesky (schurComplement A) := rfl

end Descent.SquareMatrix
