import Descent.Proofs.Curvature.Positive
/-!
# The inverse Hessian as an operator

The two loops of the recursion treat the pairs in different ways, but what they come to is a
symmetric positive definite operator: each pair, on top of the older ones, acts by congruence
and adds a square.  Where a pair is conjugate to all newer ones, the operator maps its change
of the gradient to its step.
-/

namespace Descent.CurvatureHistory

variable {n : Nat}

section Sweep

variable (γ : ℝ) (newestFirst : List (Vector ℝ n × Vector ℝ n))

theorem sweep_isLinearMap :
    IsLinearMap ℝ (sweep γ (newestFirst.map fun pair => (correction pair, correction pair))) := by
  induction newestFirst with
  | nil =>
      constructor
      · intro p q
        simp only [List.map_nil, sweep, hmul_eq_smul, smul_add]
      · intro a q
        simp only [List.map_nil, sweep, hmul_eq_smul, smul_comm a]
  | cons pair older ih =>
      obtain ⟨s, y⟩ := pair
      -- What is handed down to the older pairs is linear in the vector.
      constructor
      · intro p q
        have handed : p + q - (1 / dot s y * dot s (p + q)) • y =
            (p - (1 / dot s y * dot s p) • y) + (q - (1 / dot s y * dot s q) • y) := by
          rw [dot_add_right]
          module
        simp only [List.map_cons, sweep_cons]
        rw [handed, ih.map_add, dot_add_right, dot_add_right]
        module
      · intro a q
        have handed : a • q - (1 / dot s y * dot s (a • q)) • y =
            a • (q - (1 / dot s y * dot s q) • y) := by
          rw [dot_smul_right]
          module
        simp only [List.map_cons, sweep_cons]
        rw [handed, ih.map_smul, dot_smul_right, dot_smul_right]
        module

theorem dot_sweep_comm (p q : Vector ℝ n) :
    dot p (sweep γ (newestFirst.map fun pair => (correction pair, correction pair)) q) =
      dot q (sweep γ (newestFirst.map fun pair => (correction pair, correction pair)) p) := by
  induction newestFirst generalizing p q with
  | nil =>
      simp only [List.map_nil, sweep, hmul_eq_smul, dot_smul_right]
      rw [dot_comm]
  | cons pair older ih =>
      obtain ⟨s, y⟩ := pair
      rw [List.map_cons, dot_sweep_cons, dot_sweep_cons, ih, mul_comm (dot s p)]

end Sweep

noncomputable def conjugatePairs : CurvatureHistory ℝ (Vector ℝ 2) :=
  ((CurvatureHistory.record ⟨2, [], [], []⟩ #v[1, 0] #v[1, 1] 0).1.record
    #v[1, -1] #v[0, -1] 0).1

theorem conjugatePairs_reached : Reached 2 conjugatePairs :=
  .record _ _ (.record _ _ (.create (by simp [create, greatestCapacity])) le_rfl) le_rfl

theorem pairs_conjugatePairs :
    conjugatePairs.pairs = [(#v[1, 0], #v[1, 1]), (#v[1, -1], #v[0, -1])] := by
  have first : dot (#v[1, 0] : Vector ℝ 2) #v[1, 1] = 1 := by norm_num [dot_eq_sum]
  have second : dot (#v[1, -1] : Vector ℝ 2) #v[0, -1] = 1 := by norm_num [dot_eq_sum]
  simp [conjugatePairs, record, push, first, second, quotient_real, enqueue, pairs]

/-- Whatever pairs were recorded, the product with the implied inverse Hessian is linear,
symmetric and positive definite. -/
theorem applyInverse_symmetric_definite {capacity : Int} {h : CurvatureHistory ℝ (Vector ℝ n)}
    (reached : Reached capacity h) :
    IsLinearMap ℝ h.applyInverse ∧
    (∀ u v, dot u (h.applyInverse v) = dot v (h.applyInverse u)) ∧
    ∀ v, v ≠ 0 → 0 < dot v (h.applyInverse v) := by
  obtain ⟨newestFirst, holds⟩ := reached.holds
  obtain ⟨γ, _, eq_sweep⟩ := holds.exists_scale
  refine ⟨?_, fun u v => ?_, fun v => holds.dot_applyInverse_pos⟩
  · rw [funext eq_sweep]
    exact sweep_isLinearMap γ newestFirst
  · rw [eq_sweep, eq_sweep]
    exact dot_sweep_comm γ newestFirst u v

theorem applyInverse_symmetric_definite_two_pairs :
    Reached 2 conjugatePairs ∧ IsLinearMap ℝ conjugatePairs.applyInverse ∧
    dot #v[5, 7] (conjugatePairs.applyInverse #v[1, 3]) =
      dot #v[1, 3] (conjugatePairs.applyInverse #v[5, 7]) ∧
    (#v[5, 7] : Vector ℝ 2) ≠ 0 ∧ 0 < dot #v[5, 7] (conjugatePairs.applyInverse #v[5, 7]) := by
  obtain ⟨linear, symmetric, definite⟩ :=
    applyInverse_symmetric_definite conjugatePairs_reached
  have nonzero : (#v[5, 7] : Vector ℝ 2) ≠ 0 := by
    intro zero
    have first := congrArg (fun x : Vector ℝ 2 => x[0]) zero
    norm_num at first
  exact ⟨conjugatePairs_reached, linear, symmetric _ _, nonzero, definite _ nonzero⟩

section Secant

variable {γ : ℝ} {s y : Vector ℝ n} {newer : List (Vector ℝ n × Vector ℝ n)}

/-- The newer pairs leave `y` as it is on the way down and `s` on the way up; between them the
pair itself takes all of `y` off and brings `s` back. -/
theorem sweep_secant (product : dot s y ≠ 0) (older : List (Vector ℝ n × Vector ℝ n))
    (conjugate : ∀ pair ∈ newer, dot pair.1 y = 0 ∧ dot s pair.2 = 0) :
    sweep γ ((newer ++ (s, y) :: older).map fun pair => (correction pair, correction pair)) y =
      s := by
  induction newer with
  | nil =>
      have weight : 1 / dot s y * dot s y = 1 := one_div_mul_cancel product
      rw [List.nil_append, List.map_cons, sweep_cons]
      simp only [weight, one_smul, sub_self]
      rw [(sweep_isLinearMap γ older).map_zero, dot_eq_inner y, inner_zero_right, mul_zero,
        sub_zero, one_smul, zero_add]
  | cons pair newer ih =>
      obtain ⟨s', y'⟩ := pair
      obtain ⟨⟨down, up⟩, rest⟩ := List.forall_mem_cons.mp conjugate
      rw [List.cons_append, List.map_cons, sweep_cons]
      simp only [down, mul_zero, zero_smul, sub_zero]
      rw [ih rest, dot_comm y', up, mul_zero, sub_zero, zero_smul, add_zero]

/-- A stored pair that is conjugate to all newer ones satisfies the secant equation, and so the
newest pair always does. -/
theorem applyInverse_secant {capacity : Int} {h : CurvatureHistory ℝ (Vector ℝ n)}
    (reached : Reached capacity h) :
    (∀ older s y newer, h.pairs = older ++ (s, y) :: newer →
      (∀ pair ∈ newer, dot pair.1 y = 0 ∧ dot s pair.2 = 0) → h.applyInverse y = s) ∧
    ∀ s y, h.pairs.getLast? = some (s, y) → h.applyInverse y = s := by
  obtain ⟨newestFirst, holds⟩ := reached.holds
  obtain ⟨γ, _, eq_sweep⟩ := holds.exists_scale
  have secant : ∀ older s y newer, h.pairs = older ++ (s, y) :: newer →
      (∀ pair ∈ newer, dot pair.1 y = 0 ∧ dot s pair.2 = 0) → h.applyInverse y = s := by
    intro older s y newer stored conjugate
    obtain rfl : newestFirst = newer.reverse ++ (s, y) :: older.reverse := by
      rw [← List.reverse_reverse newestFirst, ← holds.pairs_eq, stored]
      simp
    have product := holds.product_pos (s, y) (by simp)
    rw [eq_sweep]
    exact sweep_secant product.ne' older.reverse fun pair stored =>
      conjugate pair (List.mem_reverse.mp stored)
  refine ⟨secant, fun s y newest => ?_⟩
  obtain ⟨older, stored⟩ := List.getLast?_eq_some_iff.mp newest
  exact secant older s y [] stored (by simp)

end Secant

theorem applyInverse_secant_two_pairs :
    Reached 2 conjugatePairs ∧
    (conjugatePairs.pairs = [] ++ (#v[1, 0], #v[1, 1]) :: [(#v[1, -1], #v[0, -1])] ∧
      dot (#v[1, -1] : Vector ℝ 2) #v[1, 1] = 0 ∧ dot (#v[1, 0] : Vector ℝ 2) #v[0, -1] = 0 ∧
      conjugatePairs.applyInverse #v[1, 1] = #v[1, 0]) ∧
    conjugatePairs.pairs.getLast? = some (#v[1, -1], #v[0, -1]) ∧
      conjugatePairs.applyInverse #v[0, -1] = #v[1, -1] := by
  obtain ⟨conjugate, newest⟩ := applyInverse_secant conjugatePairs_reached
  have stored := pairs_conjugatePairs
  have down : dot (#v[1, -1] : Vector ℝ 2) #v[1, 1] = 0 := by norm_num [dot_eq_sum]
  have up : dot (#v[1, 0] : Vector ℝ 2) #v[0, -1] = 0 := by norm_num [dot_eq_sum]
  have last : conjugatePairs.pairs.getLast? = some (#v[1, -1], #v[0, -1]) := by
    rw [stored]
    rfl
  exact ⟨conjugatePairs_reached,
    ⟨stored, down, up, conjugate [] _ _ _ stored (by simpa using ⟨down, up⟩)⟩,
    last, newest _ _ last⟩

end Descent.CurvatureHistory
