import Descent.Proofs.Curvature.InverseHessian
/-!
# Positivity of the inverse Hessian

Every stored pair has a positive product, so the two-loop recursion is positive definite: the
product of a vector other than zero with its image is positive.
-/

namespace Descent.CurvatureHistory

variable {n : Nat} {h : CurvatureHistory ℝ (Vector ℝ n)}
  {newestFirst : List (Vector ℝ n × Vector ℝ n)}

theorem dot_sweep_cons (γ : ℝ) (s y p q : Vector ℝ n)
    (older : List (Correction ℝ (Vector ℝ n) × Correction ℝ (Vector ℝ n))) :
    dot p (sweep γ ((correction (s, y), correction (s, y)) :: older) q) =
      dot (p - (1 / dot s y * dot s p) • y) (sweep γ older (q - (1 / dot s y * dot s q) • y)) +
        1 / dot s y * (dot s p * dot s q) := by
  rw [sweep_cons]
  dsimp only
  generalize sweep γ older (q - (1 / dot s y * dot s q) • y) = r
  rw [dot_add_right, dot_smul_right, dot_sub_left, dot_smul_left, dot_comm p s]
  ring

/-- The recursion is positive definite above a positive multiple of the identity. -/
theorem dot_sweep_pos {γ : ℝ} (γ_pos : 0 < γ)
    (product_pos : ∀ pair ∈ newestFirst, 0 < dot pair.1 pair.2) {q : Vector ℝ n} (nonzero : q ≠ 0) :
    0 < dot q (sweep γ (newestFirst.map fun pair => (correction pair, correction pair)) q) := by
  induction newestFirst generalizing q with
  | nil =>
      rw [List.map_nil, sweep, hmul_eq_smul, dot_smul_right]
      exact mul_pos γ_pos (dot_self_pos nonzero)
  | cons pair older ih =>
      obtain ⟨s, y⟩ := pair
      obtain ⟨newest_pos, older_pos⟩ := List.forall_mem_cons.mp product_pos
      rw [List.map_cons, dot_sweep_cons]
      have square_nonneg : 0 ≤ 1 / dot s y * (dot s q * dot s q) :=
        mul_nonneg (by positivity) (mul_self_nonneg _)
      by_cases handed : q - (1 / dot s y * dot s q) • y = 0
      · -- Nothing is handed down only if the newest step has a product with the vector.
        have along : dot s q ≠ 0 := by
          intro zero
          rw [zero, mul_zero, zero_smul, sub_zero] at handed
          exact nonzero handed
        have square_pos : 0 < 1 / dot s y * (dot s q * dot s q) :=
          mul_pos (by positivity) (mul_self_pos.mpr along)
        have none : dot (0 : Vector ℝ n) (sweep γ (older.map fun pair =>
            (correction pair, correction pair)) 0) = 0 := by simp [dot_eq_sum]
        rw [handed, none, zero_add]
        exact square_pos
      · exact add_pos_of_pos_of_nonneg (ih older_pos handed) square_nonneg

theorem scale_pos {step change : Vector ℝ n} (product_pos : 0 < dot step change) :
    0 < scale step change := by
  have nonzero : change ≠ 0 := by
    rintro rfl
    simp [dot_eq_sum] at product_pos
  exact div_pos product_pos (dot_self_pos nonzero)

/-- The product with the implied inverse Hessian is the recursion above a positive scale, which is
one for an empty history. -/
theorem Holds.exists_scale (holds : Holds h newestFirst) :
    ∃ γ, 0 < γ ∧ ∀ v, h.applyInverse v =
      sweep γ (newestFirst.map fun pair => (correction pair, correction pair)) v := by
  cases newestFirst with
  | nil =>
      refine ⟨1, one_pos, fun v => ?_⟩
      rw [applyInverse, holds.steps]
      exact (one_smul ℝ v).symm
  | cons pair older =>
      have newest_pos := holds.product_pos pair (List.mem_cons_self ..)
      refine ⟨scale pair.1 pair.2, scale_pos newest_pos, fun v => ?_⟩
      rw [applyInverse, holds.steps, holds.changes, ← holds.sweeps_eq]
      rfl

theorem Holds.dot_applyInverse_pos (holds : Holds h newestFirst) {v : Vector ℝ n}
    (nonzero : v ≠ 0) : 0 < dot v (h.applyInverse v) := by
  obtain ⟨γ, γ_pos, eq_sweep⟩ := holds.exists_scale
  rw [eq_sweep]
  exact dot_sweep_pos γ_pos holds.product_pos nonzero

end Descent.CurvatureHistory
