import Descent.Linear.SquareMatrix
/-!
# Linear systems

Gaussian elimination with partial pivoting.  A system has no answer exactly when a
pivot is zero; `ridgeSolve` then tries once more with the diagonal lifted.
-/

namespace Descent.SquareMatrix

variable {α : Type} [Scalar α]

/-- The row whose first entry is largest in magnitude, the earliest of equals. -/
def pivotRow {n : Nat} (A : SquareMatrix α (n + 1)) : Fin (n + 1) :=
  Fin.foldl (n + 1)
    (fun best i =>
      if Scalar.abs (first (A.get best)) < Scalar.abs (first (A.get i)) then i else best)
    ⟨0, Nat.zero_lt_succ n⟩

section Elimination

variable {n : Nat} (rows : SquareMatrix α (n + 1))

def factors : Vector α n := Vector.ofFn fun i => first (rows.get i.succ) / first (first rows)

def eliminate : SquareMatrix α n :=
  let factors := factors rows
  ofFn fun i j => (rows.get i.succ).get j.succ - factors.get i * (first rows).get j.succ

def eliminateSides (sides : Vector α (n + 1)) : Vector α n :=
  let factors := factors rows
  Vector.ofFn fun i => sides.get i.succ - factors.get i * first sides

def backSubstitute (sides : Vector α (n + 1)) (tail : Vector α n) : Vector α (n + 1) :=
  prepend ((first sides - dot (dropFirst (first rows)) tail) / first (first rows)) tail

end Elimination

/-- The solution of `A x = b`; `none` when a pivot is zero. -/
def solve? : {n : Nat} → SquareMatrix α n → Vector α n → Option (Vector α n)
  | 0, _, _ => some #v[]
  | n + 1, A, b =>
    let p := pivotRow A
    let rows := A.swap 0 p (Nat.zero_lt_succ n) p.isLt
    let sides := b.swap 0 p (Nat.zero_lt_succ n) p.isLt
    if Scalar.isZero (first (first rows)) then none
    else (solve? (eliminate rows) (eliminateSides rows sides)).map (backSubstitute rows sides)

def solve {n : Nat} (A : SquareMatrix α n) (b : Vector α n) : Except (Error α) (Vector α n) :=
  match solve? A b with
  | some x => .ok x
  | none => .error .singular

/-- The factor that scales a ridge: the largest diagonal magnitude, but at least one. -/
def ridgeScale (diagonal : List α) : Except (Error α) α :=
  match maxEntry? (diagonal.map Scalar.abs) with
  | some m => .ok (Scalar.larger 1 m)
  | none => .error .noEntries

/-- Solves `A x = b`, lifting the diagonal by a ridge if `A` is singular. -/
def ridgeSolve {n : Nat} (A : SquareMatrix α n) (b : Vector α n) (ridge : α) :
    Except (Error α) (Vector α n) :=
  match solve? A b with
  | some x => .ok x
  | none => do
    let scale ← ridgeScale (diagonal A).toList
    solve (addDiagonal A (ridge * scale)) b

def defaultRidge : α := 1e-10

end Descent.SquareMatrix
