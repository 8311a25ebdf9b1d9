import Descent.Proofs.Extended
import Descent.Proofs.Linear.Definite
/-!
# Linear algebra within the extended reals

Vectors and matrices of real numbers among those of extended ones.  On them every routine
computes what it computes in exact arithmetic: no quotient has a zero divisor and no root a
negative argument, for either would leave the real numbers.  Conversely an inner product is
finite only if every entry that takes part in it is.
-/

namespace Descent.Extended

variable {n : Nat}

def embed (x : Vector ℝ n) : Vector Extended n := x.map real

def embedMatrix (A : SquareMatrix ℝ n) : SquareMatrix Extended n := A.map embed

@[simp] theorem getElem_embed (x : Vector ℝ n) (i : Nat) (h : i < n) :
    (embed x)[i] = real x[i] := by
  simp [embed]

@[simp] theorem getElem_embedMatrix (A : SquareMatrix ℝ n) (i : Nat) (h : i < n) :
    (embedMatrix A)[i] = embed A[i] := by
  simp [embedMatrix]

section Vectors

variable (x y : Vector ℝ n)

@[simp] theorem embed_add : embed x + embed y = embed (x + y) := by
  ext i hi
  simp

@[simp] theorem embed_sub : embed x - embed y = embed (x - y) := by
  ext i hi
  simp

@[simp] theorem embed_neg : -embed x = embed (-x) := by
  ext i hi
  simp

@[simp] theorem real_mul_embed (a : ℝ) : real a * embed x = embed (a • x) := by
  ext i hi
  rw [Vector.getElem_hmul, getElem_embed, getElem_embed, real_mul, ← hmul_eq_smul,
    Vector.getElem_hmul]

@[simp] theorem embed_zero : embed (0 : Vector ℝ n) = Vector.replicate n 0 := by
  ext i hi
  simp

theorem foldl_add_real {k : Nat} (f : Fin k → ℝ) (a : ℝ) :
    Fin.foldl k (fun sum i => sum + real (f i)) (real a) =
      real (Fin.foldl k (fun sum i => sum + f i) a) := by
  induction k with
  | zero => simp
  | succ k ih => rw [Fin.foldl_succ_last, Fin.foldl_succ_last, ih, real_add]

@[simp] theorem dot_embed : dot (embed x) (embed y) = real (dot x y) := by
  have products (i : Fin n) : (embed x)[i] * (embed y)[i] = real (x[i] * y[i]) := by
    simp
  unfold dot
  simp only [products]
  exact foldl_add_real _ 0

@[simp] theorem norm_embed : norm (embed x) = real ‖x‖ := by
  rw [norm, dot_embed, sqrt_real (dot_self_nonneg x)]
  rfl

end Vectors

section Matrices

variable (A : SquareMatrix ℝ n)

@[simp] theorem mulVec_embed (x : Vector ℝ n) :
    (embedMatrix A).mulVec (embed x) = embed (A.mulVec x) := by
  ext i hi
  simp

theorem symmetricPart_embed :
    (embedMatrix A).symmetricPart = embedMatrix A.symmetricPart := by
  ext i hi j hj
  simp [SquareMatrix.symmetricPart]

end Matrices

/-! ## Factorisation and elimination -/

section Elimination

open SquareMatrix

@[simp] theorem isZero_real (a : ℝ) : Scalar.isZero (real a) = decide (a = 0) := by
  rw [← Scalar.isZero_real]
  rfl

@[simp] theorem first_embed (x : Vector ℝ (n + 1)) : first (embed x) = real (first x) :=
  getElem_embed x 0 (Nat.zero_lt_succ n)

@[simp] theorem first_embedMatrix (A : SquareMatrix ℝ (n + 1)) :
    first (embedMatrix A) = embed (first A) :=
  getElem_embedMatrix A 0 (Nat.zero_lt_succ n)

@[simp] theorem dropFirst_embed (x : Vector ℝ (n + 1)) :
    dropFirst (embed x) = embed (dropFirst x) := by
  ext i hi
  rw [getElem_dropFirst, getElem_embed, getElem_embed, getElem_dropFirst]

theorem schurComplement_embed {A : SquareMatrix ℝ (n + 1)} (pivot : 0 < first (first A)) :
    schurComplement (embedMatrix A) = embedMatrix (schurComplement A) := by
  have nonzero : Real.sqrt (first (first A)) ≠ 0 := (Real.sqrt_pos.mpr pivot).ne'
  ext i hi j hj
  rw [getElem_embedMatrix, getElem_embed, getElem_schurComplement]
  simp only [schurComplement, getElem_ofFn, Vector.get_eq_getElem, Fin.val_succ,
    Vector.getElem_ofFn, getElem_embedMatrix, getElem_embed, first_embedMatrix, first_embed,
    sqrt_real pivot.le, real_div nonzero, real_mul, real_sub]

theorem hasCholesky_embed (A : SquareMatrix ℝ n) :
    hasCholesky (embedMatrix A) = hasCholesky A := by
  induction n with
  | zero => rfl
  | succ n ih =>
      rw [hasCholesky_succ, hasCholesky_succ, first_embedMatrix, first_embed]
      by_cases pivot : first (first A) ≤ 0
      · rw [if_pos pivot, if_pos (show real (first (first A)) ≤ 0 from pivot)]
      · rw [if_neg pivot, if_neg (show ¬ real (first (first A)) ≤ 0 from pivot),
          schurComplement_embed (not_le.mp pivot), ih]

theorem isPosDef_embed (A : SquareMatrix ℝ n) : (embedMatrix A).isPosDef = A.isPosDef := by
  rw [isPosDef, symmetricPart_embed, hasCholesky_embed]
  rfl

theorem pivotRow_embed (A : SquareMatrix ℝ (n + 1)) : pivotRow (embedMatrix A) = pivotRow A := by
  have size (i : Fin (n + 1)) : Scalar.abs (first ((embedMatrix A).get i)) =
      real (Scalar.abs (first (A.get i))) := by
    simp
  unfold pivotRow
  simp only [size, real_lt]

theorem swap_embed (x : Vector ℝ (n + 1)) (p : Fin (n + 1)) :
    (embed x).swap 0 p (Nat.zero_lt_succ n) p.isLt =
      embed (x.swap 0 p (Nat.zero_lt_succ n) p.isLt) := by
  ext i hi
  simp only [Vector.getElem_swap, getElem_embed]
  split_ifs <;> rfl

theorem swap_embedMatrix (A : SquareMatrix ℝ (n + 1)) (p : Fin (n + 1)) :
    Vector.swap (embedMatrix A) 0 p (Nat.zero_lt_succ n) p.isLt = embedMatrix (pivoted A p) := by
  ext i hi j hj
  simp only [pivoted, Vector.getElem_swap, getElem_embedMatrix]
  split_ifs <;> rfl

section Rows

variable {rows : SquareMatrix ℝ (n + 1)} (pivot : first (first rows) ≠ 0)

include pivot

theorem factors_embed : factors (embedMatrix rows) = embed (factors rows) := by
  ext i hi
  simp only [factors, Vector.getElem_ofFn, Vector.get_eq_getElem, Fin.val_succ,
    getElem_embedMatrix, getElem_embed, first_embedMatrix, first_embed, real_div pivot]

theorem eliminate_embed : eliminate (embedMatrix rows) = embedMatrix (eliminate rows) := by
  unfold eliminate
  rw [factors_embed pivot]
  ext i hi j hj
  simp

theorem eliminateSides_embed (sides : Vector ℝ (n + 1)) :
    eliminateSides (embedMatrix rows) (embed sides) = embed (eliminateSides rows sides) := by
  unfold eliminateSides
  rw [factors_embed pivot]
  ext i hi
  simp

theorem backSubstitute_embed (sides : Vector ℝ (n + 1)) (tail : Vector ℝ n) :
    backSubstitute (embedMatrix rows) (embed sides) (embed tail) =
      embed (backSubstitute rows sides tail) := by
  unfold backSubstitute
  rw [first_embedMatrix, first_embed, first_embed, dropFirst_embed, dot_embed, real_sub,
    real_div pivot]
  ext i hi
  cases i <;> simp

end Rows

theorem solve?_embed (A : SquareMatrix ℝ n) (b : Vector ℝ n) :
    solve? (embedMatrix A) (embed b) = (solve? A b).map embed := by
  induction n with
  | zero => simp [solve?, embed]
  | succ n ih =>
      let rows := pivoted A (pivotRow A)
      let sides := b.swap 0 (pivotRow A) (Nat.zero_lt_succ n) (pivotRow A).isLt
      have unfolded : solve? A b = if Scalar.isZero (first (first rows)) then none
          else (solve? (eliminate rows) (eliminateSides rows sides)).map
            (backSubstitute rows sides) := rfl
      rw [unfolded]
      simp only [solve?, pivotRow_embed, swap_embedMatrix, swap_embed, first_embedMatrix,
        first_embed, isZero_real, Scalar.isZero_real]
      by_cases pivot : first (first rows) = 0
      · rw [if_pos (decide_eq_true pivot), if_pos (decide_eq_true pivot)]
        rfl
      · have regular : ¬ decide (first (first rows) = 0) = true := fun zero =>
          pivot (of_decide_eq_true zero)
        rw [if_neg regular, if_neg regular, eliminate_embed pivot, eliminateSides_embed pivot, ih,
          Option.map_map, Option.map_map]
        exact congrArg (Option.map · _) (funext (backSubstitute_embed pivot sides))

end Elimination

/-! ## Finite results -/

section Finite

theorem not_isFinite_infinity (sign : ℝ) : ¬ Scalar.isFinite (infinity sign) = true := by
  unfold infinity
  split_ifs <;> exact Bool.false_ne_true

theorem isFinite_of_neg {a : Extended} (finite : Scalar.isFinite (-a) = true) :
    Scalar.isFinite a = true := by
  cases a with
  | real x => rfl
  | posInf | negInf | nan => cases finite

theorem isFinite_of_add {a b : Extended} (finite : Scalar.isFinite (a + b) = true) :
    Scalar.isFinite a = true ∧ Scalar.isFinite b = true := by
  cases a <;> cases b <;> first | exact ⟨rfl, rfl⟩ | cases finite

theorem isFinite_of_mul {a b : Extended} (finite : Scalar.isFinite (a * b) = true) :
    Scalar.isFinite a = true ∧ Scalar.isFinite b = true := by
  cases a with
  | real x => cases b with
    | real y => exact ⟨rfl, rfl⟩
    | posInf => exact absurd finite (not_isFinite_infinity x)
    | negInf => exact absurd finite (not_isFinite_infinity (-x))
    | nan => cases finite
  | posInf => cases b with
    | real y => exact absurd finite (not_isFinite_infinity y)
    | posInf | negInf | nan => cases finite
  | negInf => cases b with
    | real y => exact absurd finite (not_isFinite_infinity (-y))
    | posInf | negInf | nan => cases finite
  | nan => cases b <;> cases finite

theorem isFinite_of_foldl {k : Nat} {f : Fin k → Extended} {a : Extended}
    (finite : Scalar.isFinite (Fin.foldl k (fun sum i => sum + f i) a) = true) (i : Fin k) :
    Scalar.isFinite (f i) = true := by
  induction k with
  | zero => exact i.elim0
  | succ k ih =>
      rw [Fin.foldl_succ_last] at finite
      obtain ⟨before, last⟩ := isFinite_of_add finite
      induction i using Fin.lastCases with
      | last => exact last
      | cast i => exact ih before i

theorem exists_embed {x : Vector Extended n}
    (finite : ∀ i (h : i < n), Scalar.isFinite x[i] = true) : ∃ y, x = embed y := by
  choose entry entry_eq using fun i : Fin n => eq_real_of_isFinite (finite i i.isLt)
  refine ⟨.ofFn entry, ?_⟩
  ext i hi
  simpa using entry_eq ⟨i, hi⟩

/-- An inner product is finite only if both vectors are. -/
theorem exists_embed_of_dot {x y : Vector Extended n} (finite : Scalar.isFinite (dot x y) = true) :
    (∃ x', x = embed x') ∧ ∃ y', y = embed y' := by
  have products (i : Nat) (h : i < n) := isFinite_of_mul (isFinite_of_foldl finite ⟨i, h⟩)
  exact ⟨exists_embed fun i h => (products i h).1, exists_embed fun i h => (products i h).2⟩

theorem exists_embedMatrix_of_mulVec {A : SquareMatrix Extended n} {x : Vector Extended n}
    {z : Vector ℝ n} (product : A.mulVec x = embed z) : ∃ A', A = embedMatrix A' := by
  have row (i : Fin n) : ∃ row', A[i] = embed row' := by
    have entry : dot A[i] x = real z[i] := by
      have entry := congrArg (fun v : Vector Extended n => v[i]) product
      simpa using entry
    exact (exists_embed_of_dot (by rw [entry]; rfl)).1
  choose rows rows_eq using row
  refine ⟨Vector.ofFn rows, ?_⟩
  ext i hi j hj
  have same := rows_eq ⟨i, hi⟩
  simp only [Fin.getElem_fin] at same
  simp [same]

end Finite

end Descent.Extended
