import Descent.Proofs.Linear.Definite
/-!
# Rigid motions

A rotation or a reflection followed by a shift, and what it does to vectors and matrices.  It
keeps inner products, and so everything that is computed from these alone: norms, curvatures and
whether a matrix is positive definite.  What is computed from coordinates, as the pivots of an
elimination, changes, but the solution of a system does not.
-/

namespace Descent

open Matrix

variable {n : Nat}

namespace SquareMatrix

def toMatrix (A : SquareMatrix ℝ n) : Matrix (Fin n) (Fin n) ℝ := .of fun i j => (A.get i).get j

theorem coordinates_mulVec (A : SquareMatrix ℝ n) (x : Vector ℝ n) :
    coordinates (A.mulVec x) = A.toMatrix *ᵥ coordinates x := by
  funext i
  rw [coordinates_apply, Vector.get_eq_getElem, getElem_mulVec, dot_eq_sum]
  rfl

theorem toMatrix_ofFn (B : Matrix (Fin n) (Fin n) ℝ) : toMatrix (ofFn B) = B := by
  ext i j
  simp [toMatrix, ofFn]

end SquareMatrix

/-- An orthogonal matrix and a vector: `z ↦ Q z + t`. -/
structure Motion (n : Nat) where
  orthogonal : orthogonalGroup (Fin n) ℝ
  shift : Vector ℝ n

namespace Motion

variable (M : Motion n)

def matrix : Matrix (Fin n) (Fin n) ℝ := M.orthogonal

def turn (x : Vector ℝ n) : Vector ℝ n := .ofFn (M.matrix *ᵥ coordinates x)

def move (x : Vector ℝ n) : Vector ℝ n := M.turn x + M.shift

def back (z : Vector ℝ n) : Vector ℝ n := .ofFn (M.matrixᵀ *ᵥ coordinates (z - M.shift))

def conjugate (A : SquareMatrix ℝ n) : SquareMatrix ℝ n :=
  .ofFn (M.matrix * A.toMatrix * M.matrixᵀ)

section Turn

variable (x y : Vector ℝ n)

theorem coordinates_turn : coordinates (M.turn x) = M.matrix *ᵥ coordinates x := by
  funext i
  simp [turn]

theorem transpose_mul_matrix : M.matrixᵀ * M.matrix = 1 :=
  (mem_orthogonalGroup_iff' (Fin n) ℝ).mp M.orthogonal.2

theorem matrix_mul_transpose : M.matrix * M.matrixᵀ = 1 :=
  (mem_orthogonalGroup_iff (Fin n) ℝ).mp M.orthogonal.2

theorem turn_add : M.turn (x + y) = M.turn x + M.turn y := by
  apply coordinates_injective
  simp only [coordinates_turn, coordinates_add, mulVec_add]

theorem turn_sub : M.turn (x - y) = M.turn x - M.turn y := by
  apply coordinates_injective
  simp only [coordinates_turn, coordinates_sub, mulVec_sub]

theorem turn_smul (a : ℝ) : M.turn (a • x) = a • M.turn x := by
  apply coordinates_injective
  simp only [coordinates_turn, coordinates_smul, mulVec_smul]

theorem turn_mul (a : ℝ) : M.turn (a * x) = a * M.turn x := M.turn_smul x a

theorem turn_neg : M.turn (-x) = -M.turn x := by
  rw [← neg_one_smul ℝ x, turn_smul, neg_one_smul]

theorem turn_zero : M.turn 0 = 0 := by
  rw [← zero_smul ℝ (0 : Vector ℝ n), turn_smul, zero_smul, zero_smul]

theorem dot_turn : dot (M.turn x) (M.turn y) = dot x y := by
  rw [← dotProduct_coordinates, coordinates_turn, coordinates_turn, dotProduct_mulVec,
    ← mulVec_transpose, mulVec_mulVec, transpose_mul_matrix, one_mulVec, dotProduct_coordinates]

theorem turn_eq_zero_iff {x : Vector ℝ n} : M.turn x = 0 ↔ x = 0 := by
  constructor
  · intro vanishes
    apply eq_zero_of_dot_self
    rw [← dot_turn, vanishes, dot_eq_inner, inner_zero_left]
  · rintro rfl
    exact M.turn_zero

theorem norm_turn : norm (M.turn x) = norm x := by
  rw [norm, norm, dot_turn]

theorem back_move : M.back (M.move x) = x := by
  apply coordinates_injective
  funext i
  simp [back, move, coordinates_turn, mulVec_mulVec, transpose_mul_matrix]

theorem move_add : M.move (x + y) = M.move x + M.turn y := by
  rw [move, move, turn_add, add_right_comm]

theorem exists_turn_eq : ∃ y, M.turn y = x := by
  refine ⟨.ofFn (M.matrixᵀ *ᵥ coordinates x), ?_⟩
  apply coordinates_injective
  have entries : coordinates (.ofFn (M.matrixᵀ *ᵥ coordinates x)) = M.matrixᵀ *ᵥ coordinates x := by
    funext i
    simp
  rw [coordinates_turn, entries, mulVec_mulVec, matrix_mul_transpose, one_mulVec]

end Turn

section Conjugate

variable (A : SquareMatrix ℝ n)

theorem mulVec_conjugate (x : Vector ℝ n) :
    (M.conjugate A).mulVec (M.turn x) = M.turn (A.mulVec x) := by
  apply coordinates_injective
  rw [SquareMatrix.coordinates_mulVec, conjugate, SquareMatrix.toMatrix_ofFn, coordinates_turn,
    coordinates_turn, SquareMatrix.coordinates_mulVec, mulVec_mulVec, mulVec_mulVec,
    Matrix.mul_assoc, transpose_mul_matrix, Matrix.mul_one]

theorem isPosDef_conjugate : (M.conjugate A).isPosDef = A.isPosDef := by
  rw [Bool.eq_iff_iff, SquareMatrix.isPosDef_iff, SquareMatrix.isPosDef_iff]
  have form (x : Vector ℝ n) :
      dot (M.turn x) ((M.conjugate A).mulVec (M.turn x)) = dot x (A.mulVec x) := by
    rw [mulVec_conjugate, dot_turn]
  constructor
  · intro positive x nonzero
    rw [← form]
    exact positive _ (M.turn_eq_zero_iff.not.mpr nonzero)
  · intro positive z nonzero
    obtain ⟨x, rfl⟩ := M.exists_turn_eq z
    rw [form]
    exact positive x (M.turn_eq_zero_iff.not.mp nonzero)

/-- The elimination takes other pivots, but a regular system has one solution. -/
theorem ridgeSolve_conjugate {A : SquareMatrix ℝ n} (definite : A.isPosDef = true)
    (b : Vector ℝ n) (ridge : ℝ) :
    (M.conjugate A).ridgeSolve (M.turn b) ridge = M.turn <$> A.ridgeSolve b ridge := by
  have turned : (M.conjugate A).isPosDef = true := (M.isPosDef_conjugate A).trans definite
  obtain ⟨x, solution, solves⟩ :=
    SquareMatrix.exists_solve? (fun _ => SquareMatrix.regular_of_isPosDef definite) b
  obtain ⟨z, solution', solves'⟩ :=
    SquareMatrix.exists_solve? (fun _ => SquareMatrix.regular_of_isPosDef turned) (M.turn b)
  have same : z = M.turn x := by
    rw [← sub_eq_zero]
    refine SquareMatrix.regular_of_isPosDef turned ?_
    rw [sub_eq_add_neg, SquareMatrix.mulVec_add, SquareMatrix.mulVec_neg, solves',
      mulVec_conjugate, solves, add_neg_cancel]
  rw [SquareMatrix.ridgeSolve_of_solve? solution, SquareMatrix.ridgeSolve_of_solve? solution',
    same]
  rfl

end Conjugate

end Motion

end Descent
