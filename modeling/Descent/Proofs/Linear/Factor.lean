import Descent.Proofs.Linear.Definite
import Descent.Proofs.Linear.Tensor
/-!
# Cholesky factors

The factorisation of a symmetric matrix passes exactly if there is a factor to be found: a lower
triangular matrix with a positive diagonal whose product with its transpose is the matrix.  So
the test for definiteness, which factors the symmetric part, decides whether the quadratic form
of any square matrix is positive.
-/

namespace Descent.SquareMatrix

variable {n : Nat}

theorem dot_eq_first_add (x y : Vector ℝ (n + 1)) :
    dot x y = first x * first y + dot (dropFirst x) (dropFirst y) := by
  simp [dot_eq_sum, Fin.sum_univ_succ]

theorem getElem_block (A : SquareMatrix ℝ (n + 1)) (i : Nat) (hi : i < n) :
    (block A)[i] = dropFirst (A.get ⟨i + 1, Nat.succ_lt_succ hi⟩) := by
  ext j hj
  simp [block]

/-- A lower triangular matrix with a positive diagonal whose rows have the entries of `A` as
their inner products. -/
structure IsFactor (L A : SquareMatrix ℝ n) : Prop where
  lower (i j : Nat) (hi : i < n) (hj : j < n) : i < j → L[i][j] = 0
  diagonal_pos (i : Nat) (hi : i < n) : 0 < L[i][i]
  entry_eq (i j : Nat) (hi : i < n) (hj : j < n) : A[i][j] = dot L[i] L[j]

section Step

variable {A : SquareMatrix ℝ (n + 1)} {L : SquareMatrix ℝ (n + 1)} {M : SquareMatrix ℝ n}

theorem IsFactor.dropFirst_first (factor : L.IsFactor A) : dropFirst (first L) = 0 := by
  ext j hj
  rw [getElem_dropFirst, first_eq_getElem, factor.lower 0 (j + 1) (by omega) (by omega) (by omega)]
  simp

theorem IsFactor.first_pos (factor : L.IsFactor A) : 0 < first (first L) :=
  factor.diagonal_pos 0 (by omega)

theorem IsFactor.first_eq (factor : L.IsFactor A) (i : Nat) (hi : i < n + 1) :
    first A[i] = first L[i] * first (first L) := by
  have entry := factor.entry_eq i 0 hi (by omega)
  rw [← first_eq_getElem L, dot_eq_first_add, factor.dropFirst_first, dot_eq_inner,
    inner_zero_right, add_zero] at entry
  exact entry

theorem IsFactor.pivot_eq (factor : L.IsFactor A) : first (first A) = first (first L) ^ 2 :=
  (factor.first_eq 0 (by omega)).trans (sq _).symm

theorem IsFactor.pivot_pos (factor : L.IsFactor A) : 0 < first (first A) := by
  rw [factor.pivot_eq]
  exact pow_pos factor.first_pos 2

theorem IsFactor.peeled (factor : L.IsFactor A) : (block L).IsFactor (schurComplement A) := by
  have root : Real.sqrt (first (first A)) = first (first L) := by
    rw [factor.pivot_eq, Real.sqrt_sq factor.first_pos.le]
  have rest (i : Nat) (hi : i < n) : (block L)[i] = dropFirst L[i + 1] := getElem_block L i hi
  refine ⟨fun i j hi hj before => ?_, fun i hi => ?_, fun i j hi hj => ?_⟩
  · rw [rest i hi, getElem_dropFirst]
    exact factor.lower (i + 1) (j + 1) (by omega) (by omega) (by omega)
  · rw [rest i hi, getElem_dropFirst]
    exact factor.diagonal_pos (i + 1) (by omega)
  · -- The complement lacks just what the first entries of two rows add to their product.
    rw [getElem_schurComplement, root, factor.first_eq, factor.first_eq,
      mul_div_cancel_right₀ _ factor.first_pos.ne', mul_div_cancel_right₀ _ factor.first_pos.ne',
      factor.entry_eq (i + 1) (j + 1), dot_eq_first_add, rest i hi, rest j hj]
    ring

/-- A factor of the Schur complement below the root of the pivot and beside the scaled first
column. -/
noncomputable def borderFactor (A : SquareMatrix ℝ (n + 1)) (M : SquareMatrix ℝ n) :
    SquareMatrix ℝ (n + 1) :=
  prepend (prepend (Real.sqrt (first (first A))) 0)
    (Vector.ofFn fun i => prepend ((border A).get i / Real.sqrt (first (first A))) (M.get i))

theorem first_borderFactor :
    first (borderFactor A M) = prepend (Real.sqrt (first (first A))) 0 := prepend_zero _ _

theorem getElem_borderFactor (i : Nat) (hi : i < n) :
    (borderFactor A M).get ⟨i + 1, Nat.succ_lt_succ hi⟩ =
      prepend (first (A.get ⟨i + 1, Nat.succ_lt_succ hi⟩) / Real.sqrt (first (first A))) M[i] := by
  rw [Vector.get_eq_getElem, borderFactor, prepend_succ]
  simp [border]

theorem IsFactor.bordered (symmetric : A.transpose = A) (pivot : 0 < first (first A))
    (factor : M.IsFactor (schurComplement A)) : (borderFactor A M).IsFactor A := by
  have root_pos : 0 < Real.sqrt (first (first A)) := Real.sqrt_pos.mpr pivot
  have zero : (borderFactor A M)[0] = prepend (Real.sqrt (first (first A))) 0 :=
    first_borderFactor
  have succ (i : Nat) (hi : i < n) : (borderFactor A M)[i + 1] =
      prepend (first A[i + 1] / Real.sqrt (first (first A))) M[i] := getElem_borderFactor i hi
  have column (i : Nat) (hi : i < n) :
      A[i + 1][0] = dot (borderFactor A M)[i + 1] (borderFactor A M)[0] := by
    rw [succ i hi, zero, dot_prepend_prepend,
      dot_eq_inner M[i], inner_zero_right, add_zero, div_mul_cancel₀ _ root_pos.ne']
    rfl
  refine ⟨fun i j hi hj before => ?_, fun i hi => ?_, fun i j hi hj => ?_⟩
  · obtain ⟨j, rfl⟩ := Nat.exists_eq_succ_of_ne_zero (Nat.ne_zero_of_lt before)
    cases i with
    | zero => simp [zero]
    | succ i =>
        have below : i < n := by omega
        have within : j + 1 < n + 1 := hj
        change (borderFactor A M)[i + 1][j + 1] = 0
        rw [succ i below, prepend_succ]
        exact factor.lower i j below (by omega) (by omega)
  · cases i with
    | zero =>
        rw [zero, prepend_zero]
        exact root_pos
    | succ i =>
        have below : i < n := by omega
        rw [succ i below, prepend_succ]
        exact factor.diagonal_pos i below
  · cases i with
    | zero =>
        cases j with
        | zero =>
            rw [zero, dot_prepend_prepend, Real.mul_self_sqrt pivot.le,
              dot_eq_inner, inner_zero_left, add_zero]
            rfl
        | succ j =>
            rw [getElem_comm symmetric hi hj, column j (by omega), dot_comm]
    | succ i =>
        cases j with
        | zero => exact column i (by omega)
        | succ j =>
            have entry := factor.entry_eq i j (by omega) (by omega)
            rw [getElem_schurComplement] at entry
            rw [succ i (by omega), succ j (by omega),
              dot_prepend_prepend, ← entry]
            ring

end Step

/-- The factorisation of a symmetric matrix passes exactly if it has a factor. -/
theorem hasCholesky_iff_exists_isFactor {A : SquareMatrix ℝ n} (symmetric : A.transpose = A) :
    hasCholesky A = true ↔ ∃ L, IsFactor L A := by
  induction n with
  | zero =>
      exact iff_of_true rfl ⟨A, fun i _ hi => absurd hi (Nat.not_lt_zero i),
        fun i hi => absurd hi (Nat.not_lt_zero i), fun i _ hi => absurd hi (Nat.not_lt_zero i)⟩
  | succ n ih =>
      rw [hasCholesky_succ]
      by_cases pivot : first (first A) ≤ 0
      · rw [if_pos pivot]
        refine iff_of_false Bool.false_ne_true ?_
        rintro ⟨L, factor⟩
        exact pivot.not_gt factor.pivot_pos
      · rw [if_neg pivot, ih (schurComplement_symmetric symmetric)]
        constructor
        · rintro ⟨M, factor⟩
          exact ⟨borderFactor A M, factor.bordered symmetric (not_le.mp pivot)⟩
        · rintro ⟨L, factor⟩
          exact ⟨block L, factor.peeled⟩

/-- The test for definiteness has an answer for every square matrix, symmetric or not.  It is
passed exactly if the quadratic form is positive away from zero, and exactly if the symmetric
part has a factor. -/
theorem isPosDef_ofRows_iff (A : SquareMatrix ℝ n) :
    (Tensor.ofRows A).isPosDef = .ok A.isPosDef ∧
      (A.isPosDef = true ↔ ∀ x, x ≠ 0 → 0 < dot x (A.mulVec x)) ∧
      (A.isPosDef = true ↔ ∃ L, IsFactor L A.symmetricPart) :=
  ⟨(Tensor.holds_ofRows A).isPosDef, isPosDef_iff,
    hasCholesky_iff_exists_isFactor (symmetricPart_symmetric A)⟩

end Descent.SquareMatrix
