import Descent.Linear.Vector
/-!
# Square matrices

A square matrix is the vector of its rows.
-/

namespace Descent

abbrev SquareMatrix (α : Type) (n : Nat) := Vector (Vector α n) n

namespace SquareMatrix

variable {α : Type} {n : Nat}

def ofFn (entry : Fin n → Fin n → α) : SquareMatrix α n :=
  Vector.ofFn fun i => Vector.ofFn fun j => entry i j

def transpose (A : SquareMatrix α n) : SquareMatrix α n := ofFn fun i j => (A.get j).get i

variable [Scalar α]

def zero : SquareMatrix α n := ofFn fun _ _ => 0

def mulVec (A : SquareMatrix α n) (x : Vector α n) : Vector α n := A.map fun row => dot row x

def symmetricPart (A : SquareMatrix α n) : SquareMatrix α n :=
  ofFn fun i j => 0.5 * ((A.get i).get j + (A.get j).get i)

def addDiagonal (A : SquareMatrix α n) (shift : α) : SquareMatrix α n :=
  ofFn fun i j => (A.get i).get j + shift * (if i = j then 1 else 0)

def diagonal (A : SquareMatrix α n) : Vector α n := Vector.ofFn fun i => (A.get i).get i

@[simp] theorem getElem_ofFn {β : Type} (entry : Fin n → Fin n → β) (i j : Nat) (hi : i < n)
    (hj : j < n) : (ofFn entry)[i][j] = entry ⟨i, hi⟩ ⟨j, hj⟩ := by
  simp [ofFn]

@[simp] theorem getElem_mulVec (A : SquareMatrix α n) (x : Vector α n) (i : Nat) (h : i < n) :
    (A.mulVec x)[i] = dot A[i] x := by
  simp [mulVec]

@[simp] theorem getElem_transpose {β : Type} (A : SquareMatrix β n) (i j : Nat) (hi : i < n)
    (hj : j < n) : A.transpose[i][j] = A[j][i] := by
  rw [transpose, getElem_ofFn]
  rfl

@[simp] theorem transpose_transpose {β : Type} (A : SquareMatrix β n) :
    A.transpose.transpose = A := by
  ext i hi j hj
  simp

end SquareMatrix

end Descent
