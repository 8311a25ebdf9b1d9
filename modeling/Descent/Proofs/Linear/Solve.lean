import Descent.Proofs.Linear.Space
import Descent.Linear.Solve
/-!
# Solving linear systems

In exact arithmetic the elimination finds a solution unless the matrix is singular, in which
case some vector other than zero is mapped to zero.
-/

namespace Descent

variable {n : Nat}

theorem dot_prepend (row : Vector ℝ (n + 1)) (head : ℝ) (tail : Vector ℝ n) :
    dot row (prepend head tail) = first row * head + dot (dropFirst row) tail := by
  simp only [dot_eq_sum, Fin.sum_univ_succ]
  simp

namespace SquareMatrix

section Pivot

theorem foldl_larger_ge {β : Type} {k : Nat} (size : β → ℝ) (item : Fin k → β) (first : β) :
    size first ≤ size (Fin.foldl k
      (fun best i => if size best < size (item i) then item i else best) first) ∧
    ∀ i, size (item i) ≤ size (Fin.foldl k
      (fun best i => if size best < size (item i) then item i else best) first) := by
  induction k with
  | zero => exact ⟨by simp, fun i => i.elim0⟩
  | succ k ih =>
      obtain ⟨start, before⟩ := ih fun i => item i.castSucc
      rw [Fin.foldl_succ_last]
      split_ifs with larger
      · refine ⟨start.trans larger.le, fun i => ?_⟩
        induction i using Fin.lastCases with
        | last => exact le_rfl
        | cast i => exact (before i).trans larger.le
      · refine ⟨start, fun i => ?_⟩
        induction i using Fin.lastCases with
        | last => exact not_lt.mp larger
        | cast i => exact before i

theorem abs_le_pivotRow (A : SquareMatrix ℝ (n + 1)) (i : Fin (n + 1)) :
    |first (A.get i)| ≤ |first (A.get (pivotRow A))| :=
  (foldl_larger_ge (fun i : Fin (n + 1) => |first (A.get i)|) id 0).2 i

end Pivot

theorem getElem_eliminate (rows : SquareMatrix ℝ (n + 1)) (i : Nat) (h : i < n) :
    (eliminate rows)[i] =
      dropFirst (rows.get ⟨i + 1, Nat.succ_lt_succ h⟩) -
        (first (rows.get ⟨i + 1, Nat.succ_lt_succ h⟩) / first (first rows)) •
          dropFirst (first rows) := by
  ext j hj
  simp [eliminate, factors]

/-- The first unknown makes the first row hold, and then the others hold as well. -/
theorem mulVec_backSubstitute {rows : SquareMatrix ℝ (n + 1)} {sides : Vector ℝ (n + 1)}
    {tail : Vector ℝ n} (pivot : first (first rows) ≠ 0)
    (solved : (eliminate rows).mulVec tail = eliminateSides rows sides) :
    rows.mulVec (backSubstitute rows sides tail) = sides := by
  ext i hi
  rw [getElem_mulVec, backSubstitute, dot_prepend]
  cases i with
  | zero =>
      rw [← first_eq_getElem rows, mul_div_cancel₀ _ pivot]
      exact sub_add_cancel _ _
  | succ i =>
      have below : i < n := by omega
      have eliminated : dot (eliminate rows)[i] tail = (eliminateSides rows sides)[i] := by
        rw [← solved, getElem_mulVec]
      have side : (eliminateSides rows sides)[i] =
          sides[i + 1] - first rows[i + 1] / first (first rows) * first sides := by
        simp [eliminateSides, factors]
      rw [getElem_eliminate, Vector.get_eq_getElem, dot_sub_left, dot_smul_left, side] at eliminated
      linear_combination eliminated

section Swap

variable (A : SquareMatrix ℝ (n + 1)) (p : Fin (n + 1))

def pivoted : SquareMatrix ℝ (n + 1) := A.swap 0 p (Nat.zero_lt_succ n) p.isLt

theorem mulVec_pivoted {x b : Vector ℝ (n + 1)} :
    mulVec (pivoted A p) x = b.swap 0 p (Nat.zero_lt_succ n) p.isLt ↔ mulVec A x = b := by
  have exchanged : mulVec (pivoted A p) x =
      (mulVec A x).swap 0 p (Nat.zero_lt_succ n) p.isLt := by
    ext k hk
    simp only [pivoted, getElem_mulVec, Vector.getElem_swap]
    split_ifs <;> rfl
  rw [exchanged]
  constructor
  · intro same
    have back := congrArg (fun y : Vector ℝ (n + 1) =>
      y.swap 0 p (Nat.zero_lt_succ n) p.isLt) same
    simpa only [Vector.swap_swap] using back
  · intro same
    rw [same]

end Swap

theorem mulVec_of_solve?_eq_some {A : SquareMatrix ℝ n} {b x : Vector ℝ n}
    (found : solve? A b = some x) : A.mulVec x = b := by
  induction n with
  | zero =>
      ext i hi
      omega
  | succ n ih =>
      simp only [solve?, Scalar.isZero_real, decide_eq_true_eq] at found
      split_ifs at found with pivot
      obtain ⟨tail, solved, rfl⟩ := Option.map_eq_some_iff.mp found
      exact (mulVec_pivoted A (pivotRow A)).mp (mulVec_backSubstitute pivot (ih solved))

/-- Without a solution to be found, the matrix maps some vector other than zero to zero. -/
theorem exists_mulVec_eq_zero_of_solve?_eq_none {A : SquareMatrix ℝ n} {b : Vector ℝ n}
    (unsolved : solve? A b = none) : ∃ x, x ≠ 0 ∧ A.mulVec x = 0 := by
  induction n with
  | zero => cases unsolved
  | succ n ih =>
      simp only [solve?, Scalar.isZero_real, decide_eq_true_eq] at unsolved
      split_ifs at unsolved with pivot
      · -- The whole first column vanishes, so the first coordinate is free.
        have column : ∀ i : Fin (n + 1), first (A.get i) = 0 := by
          intro i
          rw [first_eq_getElem (Vector.swap A _ _ _ _), Vector.getElem_swap_left] at pivot
          have small := abs_le_pivotRow A i
          rw [Vector.get_eq_getElem A (pivotRow A), pivot, abs_zero] at small
          exact abs_nonpos_iff.mp small
        refine ⟨prepend 1 0, fun zero => ?_, ?_⟩
        · have first := congrArg (fun y : Vector ℝ (n + 1) => y[0]) zero
          simp at first
        · ext i hi
          rw [getElem_mulVec, dot_prepend, dot_eq_inner, inner_zero_right]
          simpa using column ⟨i, hi⟩
      · -- What the remaining rows map to zero is completed by the first row.
        obtain ⟨tail, nonzero, vanishes⟩ := ih (Option.map_eq_none_iff.mp unsolved)
        let rows := pivoted A (pivotRow A)
        have sides : eliminateSides rows 0 = 0 := by
          ext i hi
          simp [eliminateSides]
        refine ⟨backSubstitute rows 0 tail, fun zero => nonzero ?_, ?_⟩
        · ext i hi
          have later := congrArg (fun y : Vector ℝ (n + 1) => y[i + 1]) zero
          simpa [backSubstitute] using later
        · refine (mulVec_pivoted A (pivotRow A)).mp ?_
          have solved : mulVec rows (backSubstitute rows 0 tail) = 0 :=
            mulVec_backSubstitute pivot (vanishes.trans sides.symm)
          rw [solved]
          ext i hi
          simp [Vector.getElem_swap]

theorem exists_solve? {A : SquareMatrix ℝ n} (regular : ∀ x, A.mulVec x = 0 → x = 0)
    (b : Vector ℝ n) : ∃ x, solve? A b = some x ∧ A.mulVec x = b := by
  cases solution : solve? A b with
  | none =>
      obtain ⟨x, nonzero, vanishes⟩ := exists_mulVec_eq_zero_of_solve?_eq_none solution
      exact absurd (regular x vanishes) nonzero
  | some x => exact ⟨x, rfl, mulVec_of_solve?_eq_some solution⟩

theorem ridgeSolve_of_solve? {α : Type} [Scalar α] {A : SquareMatrix α n} {b x : Vector α n}
    (solution : solve? A b = some x) (ridge : α) : ridgeSolve A b ridge = .ok x := by
  rw [ridgeSolve, solution]

end SquareMatrix

end Descent
