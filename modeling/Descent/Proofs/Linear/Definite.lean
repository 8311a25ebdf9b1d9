import Descent.Proofs.Linear.Solve
import Descent.Linear.Definite
/-!
# Positive definite matrices

A symmetric matrix whose factorisation passes has a positive quadratic form, since each pivot
leaves a square and the form of the Schur complement; and conversely.  Any other matrix is
judged by its symmetric part, which has the same form.
-/

namespace Descent.SquareMatrix

variable {n : Nat}

section Form

variable (A : SquareMatrix ℝ n)

theorem mulVec_add (x y : Vector ℝ n) : A.mulVec (x + y) = A.mulVec x + A.mulVec y := by
  ext i hi
  simp only [getElem_mulVec, Vector.getElem_add, dot_add_right]

theorem mulVec_smul (a : ℝ) (x : Vector ℝ n) : A.mulVec (a • x) = a • A.mulVec x := by
  ext i hi
  simp [dot_smul_right]

theorem mulVec_neg (x : Vector ℝ n) : A.mulVec (-x) = -A.mulVec x := by
  rw [← neg_one_smul ℝ x, mulVec_smul, neg_one_smul]

variable {A}

theorem getElem_comm (symmetric : A.transpose = A) {i j : Nat} (hi : i < n) (hj : j < n) :
    A[i][j] = A[j][i] := by
  rw [← getElem_transpose A j i hj hi, symmetric]

theorem dot_mulVec_transpose (x y : Vector ℝ n) :
    dot x (A.transpose.mulVec y) = dot y (A.mulVec x) := by
  simp only [dot_eq_sum, Vector.get_eq_getElem, getElem_mulVec, getElem_transpose, Finset.mul_sum]
  rw [Finset.sum_comm]
  refine Finset.sum_congr rfl fun i _ => Finset.sum_congr rfl fun j _ => ?_
  ring

theorem dot_mulVec_comm (symmetric : A.transpose = A) (x y : Vector ℝ n) :
    dot x (A.mulVec y) = dot y (A.mulVec x) := by
  rw [← dot_mulVec_transpose, symmetric]

variable (A)

theorem symmetricPart_symmetric : A.symmetricPart.transpose = A.symmetricPart := by
  ext i hi j hj
  simp only [getElem_transpose, symmetricPart, getElem_ofFn, Vector.get_eq_getElem]
  rw [add_comm]

theorem symmetricPart_eq_self {A : SquareMatrix ℝ n} (symmetric : A.transpose = A) :
    A.symmetricPart = A := by
  ext i hi j hj
  simp only [symmetricPart, getElem_ofFn, Vector.get_eq_getElem, getElem_comm symmetric hj hi]
  norm_num
  ring

theorem symmetricPart_mulVec (x : Vector ℝ n) :
    A.symmetricPart.mulVec x = (0.5 : ℝ) • (A.mulVec x + A.transpose.mulVec x) := by
  ext i hi
  have row : A.symmetricPart[i] = (0.5 : ℝ) • (A[i] + A.transpose[i]) := by
    ext j hj
    simp [symmetricPart]
    ring
  rw [getElem_mulVec, row, dot_smul_left, dot_add_left]
  simp
  ring

theorem dot_mulVec_symmetricPart (x : Vector ℝ n) :
    dot x (A.symmetricPart.mulVec x) = dot x (A.mulVec x) := by
  rw [symmetricPart_mulVec, dot_smul_right, dot_add_right, dot_mulVec_transpose]
  ring

end Form

section Schur

variable (A : SquareMatrix ℝ (n + 1))

def border : Vector ℝ n := Vector.ofFn fun i => first (A.get i.succ)

def block : SquareMatrix ℝ n := ofFn fun i j => (A.get i.succ).get j.succ

variable {A}

theorem dot_prepend_prepend (a b : ℝ) (x y : Vector ℝ n) :
    dot (prepend a x) (prepend b y) = a * b + dot x y := by
  simp [dot_eq_sum, Fin.sum_univ_succ]

theorem mulVec_prepend (symmetric : A.transpose = A) (a : ℝ) (x : Vector ℝ n) :
    A.mulVec (prepend a x) =
      prepend (first (first A) * a + dot (border A) x) (a • border A + (block A).mulVec x) := by
  have top : dropFirst A[0] = border A := by
    ext j hj
    simp [border, getElem_comm symmetric (Nat.zero_lt_succ n) (Nat.succ_lt_succ hj)]
  ext i hi
  rw [getElem_mulVec, dot_prepend]
  cases i with
  | zero =>
      rw [top, prepend_zero]
      rfl
  | succ i =>
      have below : i < n := by omega
      have row : dropFirst A[i + 1] = (block A)[i] := by
        ext j hj
        simp [block]
      rw [row, prepend_succ, Vector.getElem_add, getElem_mulVec]
      simp [border, mul_comm]

theorem dot_mulVec_prepend (symmetric : A.transpose = A) (a : ℝ) (x : Vector ℝ n) :
    dot (prepend a x) (A.mulVec (prepend a x)) =
      first (first A) * a ^ 2 + 2 * a * dot (border A) x + dot x ((block A).mulVec x) := by
  rw [mulVec_prepend symmetric, dot_prepend_prepend, dot_add_right, dot_smul_right,
    dot_comm x (border A)]
  ring

theorem getElem_schurComplement (i j : Nat) (hi : i < n) (hj : j < n) :
    (schurComplement A)[i][j] =
      A[i + 1][j + 1] -
        first A[i + 1] / Real.sqrt (first (first A)) *
          (first A[j + 1] / Real.sqrt (first (first A))) := by
  simp [schurComplement]

theorem schurComplement_symmetric (symmetric : A.transpose = A) :
    (schurComplement A).transpose = schurComplement A := by
  ext i hi j hj
  rw [getElem_transpose, getElem_schurComplement, getElem_schurComplement,
    getElem_comm symmetric (Nat.succ_lt_succ hj) (Nat.succ_lt_succ hi)]
  ring

/-- The form of the Schur complement lacks the square that the pivot leaves. -/
theorem dot_mulVec_schurComplement (pivot : 0 < first (first A)) (x : Vector ℝ n) :
    dot x ((schurComplement A).mulVec x) =
      dot x ((block A).mulVec x) - dot (border A) x ^ 2 / first (first A) := by
  have product : (schurComplement A).mulVec x =
      (block A).mulVec x - (dot (border A) x / first (first A)) • border A := by
    ext i hi
    have row : (schurComplement A)[i] =
        (block A)[i] - ((border A)[i] / first (first A)) • border A := by
      ext j hj
      rw [getElem_schurComplement, div_mul_div_comm, Real.mul_self_sqrt pivot.le]
      simp [block, border]
      ring
    rw [getElem_mulVec, row, dot_sub_left, dot_smul_left]
    simp
    ring
  rw [product, dot_sub_right, dot_smul_right, dot_comm x (border A)]
  ring

end Schur

/-- A symmetric matrix that has a factorisation is positive definite. -/
theorem dot_mulVec_pos {A : SquareMatrix ℝ n} (symmetric : A.transpose = A)
    (factored : hasCholesky A = true) {x : Vector ℝ n} (nonzero : x ≠ 0) :
    0 < dot x (A.mulVec x) := by
  induction n with
  | zero => exact absurd (Vector.ext fun i hi => by omega) nonzero
  | succ n ih =>
      rw [hasCholesky_succ] at factored
      split_ifs at factored with pivot
      have pivot_pos : 0 < first (first A) := not_le.mp pivot
      have parts : x = prepend (first x) (dropFirst x) := by
        ext i hi
        cases i <;> simp
      have schur := dot_mulVec_schurComplement pivot_pos (dropFirst x)
      have square : dot x (A.mulVec x) =
          first (first A) * (first x + dot (border A) (dropFirst x) / first (first A)) ^ 2 +
            dot (dropFirst x) ((schurComplement A).mulVec (dropFirst x)) := by
        rw [schur, parts, dot_mulVec_prepend symmetric, ← parts]
        field_simp
        ring
      rw [square]
      by_cases zero : dropFirst x = 0
      · have leading : first x ≠ 0 := by
          intro vanishes
          refine nonzero (parts.trans ?_)
          rw [vanishes, zero]
          ext i hi
          cases i <;> simp
        rw [zero, dot_eq_inner, dot_eq_inner, inner_zero_right, inner_zero_left, zero_div,
          add_zero, add_zero]
        positivity
      · exact add_pos_of_nonneg_of_pos (by positivity)
          (ih (schurComplement_symmetric symmetric) factored zero)

/-- A matrix that passes the test has a positive form, whether it is symmetric or not. -/
theorem dot_mulVec_pos_of_isPosDef {A : SquareMatrix ℝ n} (definite : A.isPosDef = true)
    {x : Vector ℝ n} (nonzero : x ≠ 0) : 0 < dot x (A.mulVec x) := by
  rw [← dot_mulVec_symmetricPart]
  exact dot_mulVec_pos (symmetricPart_symmetric A) definite nonzero

theorem dot_mulVec_nonneg_of_isPosDef {A : SquareMatrix ℝ n} (definite : A.isPosDef = true)
    (x : Vector ℝ n) : 0 ≤ dot x (A.mulVec x) := by
  by_cases zero : x = 0
  · rw [zero, dot_eq_inner, inner_zero_left]
  · exact (dot_mulVec_pos_of_isPosDef definite zero).le

theorem regular_of_isPosDef {A : SquareMatrix ℝ n} (definite : A.isPosDef = true)
    {x : Vector ℝ n} (vanishes : A.mulVec x = 0) : x = 0 := by
  by_contra nonzero
  have positive := dot_mulVec_pos_of_isPosDef definite nonzero
  rw [vanishes, dot_eq_inner, inner_zero_right] at positive
  exact lt_irrefl _ positive

/-- A symmetric matrix with a positive form has a factorisation. -/
theorem hasCholesky_of_pos {A : SquareMatrix ℝ n} (symmetric : A.transpose = A)
    (positive : ∀ x, x ≠ 0 → 0 < dot x (A.mulVec x)) : hasCholesky A = true := by
  induction n with
  | zero => rfl
  | succ n ih =>
      have pivot : 0 < first (first A) := by
        have leading := positive (prepend 1 0) fun zero => by
          have first := congrArg (fun y : Vector ℝ (n + 1) => y[0]) zero
          simp at first
        rw [dot_mulVec_prepend symmetric] at leading
        simpa [dot_eq_inner] using leading
      rw [hasCholesky_succ, if_neg (not_le.mpr pivot)]
      refine ih (schurComplement_symmetric symmetric) fun x nonzero => ?_
      -- The first coordinate that makes the form least turns it into that of the complement.
      have least := positive (prepend (-(dot (border A) x / first (first A))) x) fun zero =>
        nonzero (by
          ext i hi
          have later := congrArg (fun y : Vector ℝ (n + 1) => y[i + 1]) zero
          simpa using later)
      rw [dot_mulVec_prepend symmetric] at least
      rw [dot_mulVec_schurComplement pivot]
      refine least.trans_eq ?_
      field_simp
      ring

theorem isPosDef_iff {A : SquareMatrix ℝ n} :
    A.isPosDef = true ↔ ∀ x, x ≠ 0 → 0 < dot x (A.mulVec x) := by
  constructor
  · exact fun definite x nonzero => dot_mulVec_pos_of_isPosDef definite nonzero
  · intro positive
    refine hasCholesky_of_pos (symmetricPart_symmetric A) fun x nonzero => ?_
    rw [dot_mulVec_symmetricPart]
    exact positive x nonzero

end Descent.SquareMatrix
