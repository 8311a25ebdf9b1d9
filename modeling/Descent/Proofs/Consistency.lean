import Descent.Proofs.Linear.Definite
import Descent.Consistency
/-!
# The symmetry check

In exact arithmetic a matrix passes the check of its transpose if it is nearly symmetric, beside
its largest entry; a matrix without entries never does.
-/

namespace Descent

namespace SquareMatrix

variable {n : Nat}

theorem mem_magnitudes {α : Type} [Scalar α] {A : SquareMatrix α n} {a : α} :
    a ∈ A.magnitudes ↔ ∃ (i j : Nat) (hi : i < n) (hj : j < n), Scalar.abs A[i][j] = a := by
  simp only [magnitudes, List.mem_flatMap, List.mem_map, Vector.mem_toList_iff,
    Vector.mem_iff_getElem]
  constructor
  · rintro ⟨_, ⟨i, hi, rfl⟩, _, ⟨j, hj, rfl⟩, rfl⟩
    exact ⟨i, j, hi, hj, rfl⟩
  · rintro ⟨i, j, hi, hj, rfl⟩
    exact ⟨_, ⟨i, hi, rfl⟩, _, ⟨j, hj, rfl⟩, rfl⟩

theorem magnitudes_ne_nil {α : Type} [Scalar α] (positive : 0 < n) (A : SquareMatrix α n) :
    A.magnitudes ≠ [] :=
  List.ne_nil_of_mem (mem_magnitudes.mpr ⟨0, 0, positive, positive, rfl⟩)

def IsLargest (A : SquareMatrix ℝ n) (largest : ℝ) : Prop :=
  IsGreatest (Set.range fun p : Fin n × Fin n => |(A.get p.1).get p.2|) largest

/-- Across the diagonal entries differ by little beside the largest entry. -/
def IsNearlySymmetric (A : SquareMatrix ℝ n) (tolerance : ℝ) : Prop :=
  ∃ largest, A.IsLargest largest ∧
    ∀ i j : Fin n, |(A.get i).get j - (A.get j).get i| ≤ tolerance * max 1 largest

variable {A : SquareMatrix ℝ n} {largest tolerance : ℝ}

theorem IsLargest.abs_le (greatest : A.IsLargest largest) (i j : Fin n) :
    |(A.get i).get j| ≤ largest :=
  greatest.2 ⟨(i, j), rfl⟩

theorem exists_maxEntry? (positive : 0 < n) (A : SquareMatrix ℝ n) :
    ∃ largest, maxEntry? A.magnitudes = some largest ∧ A.IsLargest largest := by
  obtain ⟨a, rest, cons⟩ := List.exists_cons_of_ne_nil (magnitudes_ne_nil positive A)
  have entries : {b | b ∈ a :: rest} = Set.range fun p : Fin n × Fin n =>
      |(A.get p.1).get p.2| := by
    ext b
    change b ∈ a :: rest ↔ _
    rw [← cons, mem_magnitudes]
    constructor
    · rintro ⟨i, j, hi, hj, rfl⟩
      exact ⟨(⟨i, hi⟩, ⟨j, hj⟩), rfl⟩
    · rintro ⟨⟨i, j⟩, rfl⟩
      exact ⟨i, j, i.isLt, j.isLt, rfl⟩
  refine ⟨_, congrArg maxEntry? cons, ?_⟩
  rw [IsLargest, ← entries]
  exact isGreatest_foldl_supremum a rest

theorem isNearlySymmetric_iff (greatest : A.IsLargest largest) :
    A.IsNearlySymmetric tolerance ↔
      ∀ i j : Fin n, |(A.get i).get j - (A.get j).get i| ≤ tolerance * max 1 largest := by
  constructor
  · rintro ⟨largest', greatest', close⟩
    rwa [greatest'.unique greatest] at close
  · exact fun close => ⟨largest, greatest, close⟩

theorem not_isNearlySymmetric_empty (A : SquareMatrix ℝ 0) : ¬A.IsNearlySymmetric tolerance := by
  rintro ⟨_, ⟨⟨⟨i, _⟩, _⟩, _⟩, _⟩
  exact i.elim0

theorem requireSymmetric_empty (A : SquareMatrix ℝ 0) (tolerance : ℝ) :
    A.requireSymmetric tolerance = .error .noEntries := by
  obtain rfl : A = #v[] := Vector.eq_empty
  rfl

/-- The check compares the largest deviation from the transpose with the largest entry. -/
theorem requireSymmetric_eq_ok_iff :
    A.requireSymmetric tolerance = .ok () ↔ A.IsNearlySymmetric tolerance := by
  rcases Nat.eq_zero_or_pos n with rfl | positive
  · simp [requireSymmetric_empty, not_isNearlySymmetric_empty]
  · obtain ⟨largest, found, greatest⟩ := exists_maxEntry? positive A
    obtain ⟨deviation, deviation_found, farthest⟩ := exists_maxEntry? positive A.deviation
    have bounded : deviation ≤ tolerance * max 1 largest ↔ A.IsNearlySymmetric tolerance := by
      rw [isNearlySymmetric_iff greatest, isLUB_le_iff farthest.isLUB, mem_upperBounds,
        Set.forall_mem_range, Prod.forall]
      simp [SquareMatrix.deviation]
    rw [← bounded, requireSymmetric, isSymmetric, found, deviation_found]
    by_cases small : deviation ≤ tolerance * max 1 largest
    · simp [small, bind, Except.bind, pure, Except.pure]
    · simp [small, bind, Except.bind, throw, throwThe, MonadExceptOf.throw]

theorem isNearlySymmetric_of_symmetric (positive : 0 < n) (symmetric : A.transpose = A)
    (nonneg : 0 ≤ tolerance) : A.IsNearlySymmetric tolerance := by
  obtain ⟨largest, _, greatest⟩ := exists_maxEntry? positive A
  refine ⟨largest, greatest, fun i j => ?_⟩
  have bound : 0 ≤ tolerance * max 1 largest :=
    mul_nonneg nonneg (zero_le_one.trans (le_max_left _ _))
  simpa [getElem_comm symmetric i.isLt j.isLt] using bound

theorem requireSymmetric_eq_ok (positive : 0 < n) (symmetric : A.transpose = A)
    (nonneg : 0 ≤ tolerance) : A.requireSymmetric tolerance = .ok () :=
  requireSymmetric_eq_ok_iff.mpr (isNearlySymmetric_of_symmetric positive symmetric nonneg)

end SquareMatrix

end Descent
