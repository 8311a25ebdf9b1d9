import Descent.Proofs.Objective.Gradient
/-!
# Unique minima

The chained Rosenbrock function and the Wood function are nowhere negative and vanish at one point
only, where every coordinate is one.  Along the chain a term that vanishes fixes both of its
coordinates, also the last one, which leads no term.  In the Wood function the product is taken up
by the squares beside it.
-/

namespace Descent

namespace Rosenbrock

theorem link_nonneg (a b : ℝ) : 0 ≤ link a b := by
  rw [link_real]
  positivity

theorem link_eq_zero_iff (a b : ℝ) : link a b = 0 ↔ a = 1 ∧ b = 1 := by
  rw [link_real]
  constructor
  · intro vanishes
    have lead : (a - 1) ^ 2 = 0 := by
      nlinarith [sq_nonneg (a ^ 2 - b), sq_nonneg (a - 1)]
    have parabola : (a ^ 2 - b) ^ 2 = 0 := by linarith
    have a_eq : a = 1 := sub_eq_zero.mp (pow_eq_zero_iff two_ne_zero |>.mp lead)
    have b_eq : a ^ 2 = b := sub_eq_zero.mp (pow_eq_zero_iff two_ne_zero |>.mp parabola)
    exact ⟨a_eq, by rw [← b_eq, a_eq, one_pow]⟩
  · rintro ⟨rfl, rfl⟩
    norm_num

theorem chain_nonneg (l : List ℝ) : 0 ≤ chain l := by
  induction l using chain.induct with
  | case1 a b rest ih =>
      rw [chain_cons_cons]
      exact add_nonneg (link_nonneg a b) ih
  | case2 l short => rw [chain]; exact short

theorem chain_eq_zero_iff (a b : ℝ) (rest : List ℝ) :
    chain (a :: b :: rest) = 0 ↔ ∀ c ∈ a :: b :: rest, c = 1 := by
  induction rest generalizing a b with
  | nil => simp [chain_cons_cons, link_eq_zero_iff]
  | cons c rest ih =>
      rw [chain_cons_cons, add_eq_zero_iff_of_nonneg (link_nonneg a b) (chain_nonneg _),
        link_eq_zero_iff, ih b c]
      constructor
      · rintro ⟨⟨a_eq, _⟩, others⟩
        exact List.forall_mem_cons.mpr ⟨a_eq, others⟩
      · intro all
        obtain ⟨a_eq, others⟩ := List.forall_mem_cons.mp all
        exact ⟨⟨a_eq, others b List.mem_cons_self⟩, others⟩

theorem value_eq_zero_iff {n : Nat} (two_le : 2 ≤ n) (x : Vector ℝ n) :
    value x = 0 ↔ ∀ i : Fin n, x.get i = 1 := by
  have coordinates : (∀ c ∈ x.toList, c = 1) ↔ ∀ i : Fin n, x.get i = 1 := by
    simp only [Vector.mem_toList_iff, Vector.mem_iff_getElem]
    constructor
    · intro all i
      exact all _ ⟨i, i.isLt, rfl⟩
    · rintro all _ ⟨i, hi, rfl⟩
      exact all ⟨i, hi⟩
  rw [← coordinates, value]
  obtain ⟨a, tail, list⟩ := List.exists_cons_of_length_pos (l := x.toList)
    (by rw [x.length_toList]; omega)
  have length_eq := congrArg List.length list
  rw [x.length_toList, List.length_cons] at length_eq
  obtain ⟨b, rest, rfl⟩ := List.exists_cons_of_length_pos (l := tail) (by omega)
  rw [list]
  exact chain_eq_zero_iff a b rest

end Rosenbrock

namespace Wood

/-- The product of two deviations is taken up by their squares. -/
theorem valueOf_eq_squares (a b c d : ℝ) : valueOf a b c d =
    100 * (a ^ 2 - b) ^ 2 + (1 - a) ^ 2 + 90 * (c ^ 2 - d) ^ 2 + (1 - c) ^ 2 +
      1 / 5 * ((1 - b) ^ 2 + (1 - d) ^ 2) + 99 / 10 * ((1 - b) + (1 - d)) ^ 2 := by
  rw [valueOf_real]
  ring

theorem valueOf_nonneg (a b c d : ℝ) : 0 ≤ valueOf a b c d := by
  rw [valueOf_eq_squares]
  positivity

theorem valueOf_eq_zero_iff (a b c d : ℝ) :
    valueOf a b c d = 0 ↔ a = 1 ∧ b = 1 ∧ c = 1 ∧ d = 1 := by
  rw [valueOf_eq_squares]
  constructor
  · intro vanishes
    have first := sq_nonneg (a ^ 2 - b)
    have second := sq_nonneg (c ^ 2 - d)
    have mixed := sq_nonneg (1 - b + (1 - d))
    have lead := sq_nonneg (1 - a)
    have follow := sq_nonneg (1 - b)
    have lead' := sq_nonneg (1 - c)
    have follow' := sq_nonneg (1 - d)
    have eq_one (u : ℝ) (small : (1 - u) ^ 2 ≤ 0) : u = 1 :=
      (sub_eq_zero.mp (pow_eq_zero_iff two_ne_zero |>.mp (small.antisymm (sq_nonneg _)))).symm
    exact ⟨eq_one a (by linarith), eq_one b (by linarith), eq_one c (by linarith),
      eq_one d (by linarith)⟩
  · rintro ⟨rfl, rfl, rfl, rfl⟩
    norm_num

theorem value_eq_zero_iff (x : Vector ℝ 4) : value x = 0 ↔ x = #v[1, 1, 1, 1] := by
  rw [value, valueOf_eq_zero_iff]
  constructor
  · rintro ⟨a_eq, b_eq, c_eq, d_eq⟩
    ext i hi
    obtain rfl | rfl | rfl | rfl : i = 0 ∨ i = 1 ∨ i = 2 ∨ i = 3 := by omega
    · exact a_eq
    · exact b_eq
    · exact c_eq
    · exact d_eq
  · rintro rfl
    exact ⟨rfl, rfl, rfl, rfl⟩

end Wood

/-- The chained Rosenbrock function of two coordinates or more, and the Wood function, have the
value zero where every coordinate is one, and a positive value everywhere else. -/
theorem minimum_unique :
    (∀ (n : Nat) (x : Vector ℝ n), 2 ≤ n →
      0 ≤ Rosenbrock.value x ∧ (Rosenbrock.value x = 0 ↔ ∀ i : Fin n, x.get i = 1)) ∧
    ∀ x : Vector ℝ 4, 0 ≤ Wood.value x ∧ (Wood.value x = 0 ↔ x = #v[1, 1, 1, 1]) :=
  ⟨fun _ x two_le => ⟨Rosenbrock.chain_nonneg x.toList, Rosenbrock.value_eq_zero_iff two_le x⟩,
    fun x => ⟨Wood.valueOf_nonneg _ _ _ _, Wood.value_eq_zero_iff x⟩⟩

theorem minimum_unique_off_last :
    2 ≤ 4 ∧ 0 ≤ Rosenbrock.value (#v[1, 1, 1, 2] : Vector ℝ 4) ∧
      Rosenbrock.value (#v[1, 1, 1, 2] : Vector ℝ 4) ≠ 0 := by
  obtain ⟨nonneg, vanishes_iff⟩ := minimum_unique.1 4 #v[1, 1, 1, 2] (by norm_num)
  refine ⟨by norm_num, nonneg, fun vanishes => ?_⟩
  have last : (2 : ℝ) = 1 := vanishes_iff.mp vanishes 3
  norm_num at last

end Descent
