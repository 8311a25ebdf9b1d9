import Mathlib
import Descent.Linear.Vector
import Descent.Start
/-!
# Real scalars

The methods in exact arithmetic.  Every real number is finite, comparisons are total, and
the operations that can fail do so only for a zero divisor.
-/

namespace Descent

noncomputable instance : Scalar ℝ where
  decLt := Classical.decRel _
  decLe := Classical.decRel _
  sqrt := Real.sqrt
  abs := abs
  power a k := a ^ k
  isFinite _ := true

namespace Scalar

@[simp] theorem isFinite_real (a : ℝ) : isFinite a = true := rfl

@[simp] theorem sqrt_real (a : ℝ) : Scalar.sqrt a = Real.sqrt a := rfl

@[simp] theorem abs_real (a : ℝ) : Scalar.abs a = |a| := rfl

@[simp] theorem power_real (a : ℝ) (k : Nat) : power a k = a ^ k := rfl

@[simp] theorem larger_real (a b : ℝ) : larger a b = max a b := by
  unfold larger
  split_ifs with h
  · exact (max_eq_right h.le).symm
  · exact (max_eq_left (not_lt.mp h)).symm

@[simp] theorem smaller_real (a b : ℝ) : smaller a b = min a b := by
  unfold smaller
  split_ifs with h
  · exact (min_eq_right h.le).symm
  · exact (min_eq_left (not_lt.mp h)).symm

@[simp] theorem isZero_real (a : ℝ) : isZero a = decide (a = 0) := by
  unfold isZero
  rw [← Bool.decide_and]
  exact decide_eq_decide.mpr le_antisymm_iff.symm

@[simp] theorem isUnordered_real (a : ℝ) : isUnordered a = false := by
  simp [isUnordered]

@[simp] theorem supremum_real (a b : ℝ) : supremum a b = max a b := by
  unfold supremum
  simp only [isUnordered_real, Bool.false_eq_true, or_false]
  split_ifs with h
  · exact (max_eq_left h).symm
  · exact (max_eq_right (not_le.mp h).le).symm

end Scalar

/-- The largest entry of a list is the greatest number in it. -/
theorem isGreatest_foldl_supremum (a : ℝ) (rest : List ℝ) :
    IsGreatest {b | b ∈ a :: rest} (rest.foldl Scalar.supremum a) := by
  induction rest generalizing a with
  | nil => simp [isGreatest_singleton]
  | cons b rest ih =>
      rw [List.foldl_cons, Scalar.supremum_real]
      obtain ⟨attained, upper⟩ := ih (max a b)
      have first : max a b ≤ rest.foldl Scalar.supremum (max a b) := upper List.mem_cons_self
      refine ⟨?_, fun c member => ?_⟩
      · change rest.foldl Scalar.supremum (max a b) ∈ a :: b :: rest
        rcases List.mem_cons.mp attained with same | later
        · rw [same]
          rcases max_choice a b with left | right
          · simp [left]
          · simp [right]
        · exact List.mem_cons_of_mem a (List.mem_cons_of_mem b later)
      · rcases List.mem_cons.mp member with rfl | later
        · exact (le_max_left _ _).trans first
        · rcases List.mem_cons.mp later with rfl | later
          · exact (le_max_right _ _).trans first
          · exact upper (List.mem_cons_of_mem _ later)

theorem quotient_real {a b : ℝ} (hb : b ≠ 0) : quotient a b = .ok (a / b) :=
  quotient_of_ne (by simpa using hb)

theorem isConverged_real (gradientNorm tolerance : ℝ) :
    isConverged gradientNorm tolerance = decide (gradientNorm ≤ max tolerance 1e-12) := by
  rw [isConverged, Scalar.larger_real]
  rfl

theorem lt_of_isConverged_eq_false {gradientNorm tolerance : ℝ}
    (notConverged : isConverged gradientNorm tolerance = false) :
    max tolerance 1e-12 < gradientNorm := by
  rw [isConverged_real] at notConverged
  exact not_le.mp (of_decide_eq_false notConverged)

theorem le_of_isConverged_eq_true {gradientNorm tolerance : ℝ}
    (converged : isConverged gradientNorm tolerance = true) :
    gradientNorm ≤ max tolerance 1e-12 := by
  rw [isConverged_real] at converged
  exact of_decide_eq_true converged

@[simp] theorem square_real (a : ℝ) : square a = .ok (a * a) := by
  simp [square, checkPower, pow_two]

@[simp] theorem cube_real (a : ℝ) : cube a = .ok (a * a * a) := by
  simp [cube, checkPower, pow_three']

end Descent
