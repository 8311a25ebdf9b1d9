import Descent.Proofs.Curvature.InverseHessian
/-!
# Histories of isotropic functions

Where the gradient changes by one multiple of every step, each correction takes out the part of a
vector along its step and puts the inverse multiple of it back.  So the inverse Hessian of such a
history is the inverse multiple of the identity, however many pairs it holds and in whatever
directions.
-/

namespace Descent.CurvatureHistory

variable {n : Nat} {a : ℝ}

/-- A history of pairs in which the change of the gradient is a multiple of the step. -/
structure HoldsMultiples (a : ℝ) (h : CurvatureHistory ℝ (Vector ℝ n))
    (newestFirst : List (Vector ℝ n × Vector ℝ n)) : Prop extends Holds h newestFirst where
  change_eq : ∀ pair ∈ newestFirst, pair.2 = a • pair.1

namespace HoldsMultiples

variable {h : CurvatureHistory ℝ (Vector ℝ n)} {newestFirst : List (Vector ℝ n × Vector ℝ n)}

theorem clear : HoldsMultiples a h.clear [] := ⟨Holds.clear, by simp⟩

theorem record (holds : HoldsMultiples a h newestFirst) (step : Vector ℝ n) {threshold : ℝ}
    (nonneg : 0 ≤ threshold) :
    ∃ newestFirst', HoldsMultiples a (h.record step (a • step) threshold).1 newestFirst' := by
  refine ⟨_, holds.toHolds.record step (a • step) nonneg, ?_⟩
  intro pair member
  split at member
  · rcases List.mem_cons.mp (List.mem_of_mem_take member) with rfl | older
    · rfl
    · exact holds.change_eq pair older
  · exact holds.change_eq pair member

end HoldsMultiples

theorem scale_multiple {step : Vector ℝ n} (product_ne : dot step (a • step) ≠ 0) :
    scale step (a • step) = a⁻¹ := by
  rw [scale, dot_smul_left, mul_comm, ← div_div, div_self product_ne, one_div]

theorem sweep_multiples (a_ne : a ≠ 0) {pairs : List (Vector ℝ n × Vector ℝ n)}
    (product_ne : ∀ pair ∈ pairs, dot pair.1 pair.2 ≠ 0)
    (change_eq : ∀ pair ∈ pairs, pair.2 = a • pair.1) (v : Vector ℝ n) :
    sweep a⁻¹ (pairs.map fun pair => (correction pair, correction pair)) v = a⁻¹ • v := by
  induction pairs generalizing v with
  | nil => simp [sweep]
  | cons pair older ih =>
      obtain ⟨s, y⟩ := pair
      obtain ⟨head_ne, older_ne⟩ := List.forall_mem_cons.mp product_ne
      obtain ⟨head_eq, older_eq⟩ := List.forall_mem_cons.mp change_eq
      dsimp only at head_ne head_eq
      subst head_eq
      rw [List.map_cons, sweep_cons]
      dsimp only
      rw [ih older_ne older_eq]
      set t := 1 / dot s (a • s) * dot s v with t_eq
      have share : t * dot s (a • s) = dot s v := by
        rw [t_eq, mul_right_comm, one_div_mul_cancel head_ne, one_mul]
      -- What is handed down has nothing left along the step.
      have orthogonal : dot (a • s) (a⁻¹ • (v - t • a • s)) = 0 := by
        rw [dot_smul_left, dot_smul_right, mul_inv_cancel_left₀ a_ne, dot_sub_right,
          dot_smul_right, share, sub_self]
      have back : a⁻¹ • (t • a • s) = t • s := by
        rw [smul_comm t a, inv_smul_smul₀ a_ne]
      rw [orthogonal, mul_zero, sub_zero, smul_sub, back, sub_add_cancel]

theorem HoldsMultiples.applyInverse_eq {h : CurvatureHistory ℝ (Vector ℝ n)}
    {newestFirst : List (Vector ℝ n × Vector ℝ n)} (holds : HoldsMultiples a h newestFirst)
    (a_ne : a ≠ 0) (stored : h.size ≠ 0) (v : Vector ℝ n) : h.applyInverse v = a⁻¹ • v := by
  have product_ne : ∀ pair ∈ newestFirst, dot pair.1 pair.2 ≠ 0 := fun pair member =>
    (holds.product_pos pair member).ne'
  have swept := sweep_multiples a_ne product_ne holds.change_eq v
  rw [← holds.sweeps_eq] at swept
  cases newestFirst with
  | nil => exact absurd holds.size_eq stored
  | cons pair older =>
      have scale_eq : scale pair.1 pair.2 = a⁻¹ := by
        have head_ne := product_ne pair List.mem_cons_self
        rw [holds.change_eq pair List.mem_cons_self] at head_ne ⊢
        exact scale_multiple head_ne
      rw [← swept, ← scale_eq, applyInverse, holds.steps, holds.changes]
      rfl

end Descent.CurvatureHistory
