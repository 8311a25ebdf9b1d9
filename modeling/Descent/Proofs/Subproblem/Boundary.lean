import Descent.Proofs.Subproblem.Cauchy
/-!
# Where a ray leaves the ball

Along a ray the squared distance from zero is a quadratic polynomial.  If the ray starts in the
ball, it is at most the squared radius up to the larger root and greater from there on, so that the
ray leaves the ball there for good, whether it starts inside or on the boundary and whichever way
it points.
-/

namespace Descent.Subproblem

section Root

variable {a b c t : ℝ}

noncomputable def largerRoot (a b c : ℝ) : ℝ := (-b + Real.sqrt (b * b - 4 * a * c)) / (2 * a)

variable (a_pos : 0 < a)

include a_pos

theorem slope_largerRoot :
    2 * a * largerRoot a b c + b = Real.sqrt (b * b - 4 * a * c) := by
  rw [largerRoot, mul_div_cancel₀ _ (by positivity)]
  ring

variable (c_nonpos : c ≤ 0)

include c_nonpos

theorem sq_le_discriminant : b ^ 2 ≤ b * b - 4 * a * c := by
  nlinarith [mul_nonpos_of_nonneg_of_nonpos a_pos.le c_nonpos]

theorem abs_le_sqrt_discriminant : |b| ≤ Real.sqrt (b * b - 4 * a * c) :=
  Real.abs_le_sqrt (sq_le_discriminant a_pos c_nonpos)

theorem largerRoot_nonneg : 0 ≤ largerRoot a b c := by
  have root_ge : b ≤ Real.sqrt (b * b - 4 * a * c) :=
    (le_abs_self b).trans (abs_le_sqrt_discriminant a_pos c_nonpos)
  exact div_nonneg (by linarith) (by positivity)

theorem polynomial_eq_about_largerRoot (t : ℝ) :
    a * t ^ 2 + b * t + c =
      (t - largerRoot a b c) *
        (a * (t - largerRoot a b c) + Real.sqrt (b * b - 4 * a * c)) := by
  have root_sq : Real.sqrt (b * b - 4 * a * c) ^ 2 = b * b - 4 * a * c :=
    Real.sq_sqrt ((sq_nonneg b).trans (sq_le_discriminant a_pos c_nonpos))
  have scaled : 4 * a * (a * largerRoot a b c ^ 2 + b * largerRoot a b c + c) = 0 := by
    rw [← slope_largerRoot a_pos] at root_sq
    linear_combination root_sq
  have vanishes := (mul_eq_zero.mp scaled).resolve_left (by positivity)
  rw [← slope_largerRoot a_pos]
  linear_combination vanishes

theorem polynomial_nonpos (t_nonneg : 0 ≤ t) (t_le : t ≤ largerRoot a b c) :
    a * t ^ 2 + b * t + c ≤ 0 := by
  rw [polynomial_eq_about_largerRoot a_pos c_nonpos]
  refine mul_nonpos_of_nonpos_of_nonneg (sub_nonpos.mpr t_le) ?_
  -- The other factor is at least half of what the root of the discriminant exceeds `-b` by.
  have slope := slope_largerRoot a_pos (b := b) (c := c)
  have root_ge : -b ≤ Real.sqrt (b * b - 4 * a * c) :=
    (neg_le_abs b).trans (abs_le_sqrt_discriminant a_pos c_nonpos)
  have advance : 0 ≤ a * t := mul_nonneg a_pos.le t_nonneg
  linarith

theorem polynomial_pos (lt_t : largerRoot a b c < t) : 0 < a * t ^ 2 + b * t + c := by
  rw [polynomial_eq_about_largerRoot a_pos c_nonpos]
  have ahead : 0 < t - largerRoot a b c := sub_pos.mpr lt_t
  have root_nonneg := Real.sqrt_nonneg (b * b - 4 * a * c)
  positivity

end Root

section Ray

variable {n : Nat} {p d : Vector ℝ n} {radius t : ℝ}

theorem norm_add_smul_sq (p d : Vector ℝ n) (t : ℝ) :
    ‖p + t • d‖ ^ 2 = ‖d‖ ^ 2 * t ^ 2 + 2 * dot p d * t + ‖p‖ ^ 2 := by
  rw [← dot_self_eq, ← dot_self_eq, ← dot_self_eq]
  simp only [dot_add_left, dot_add_right, dot_smul_left, dot_smul_right, dot_comm d p]
  ring

/-- A ray from within the ball is there until it comes to the boundary, and not afterwards. -/
structure Exits (p d : Vector ℝ n) (radius t : ℝ) : Prop where
  nonneg : 0 ≤ t
  norm_eq : ‖p + t • d‖ = radius
  norm_le : ∀ s, 0 ≤ s → s ≤ t → ‖p + s • d‖ ≤ radius
  lt_norm : ∀ s, t < s → radius < ‖p + s • d‖

namespace Exits

theorem isGreatest (exits : Exits p d radius t) :
    IsGreatest {s : ℝ | ‖p + s • d‖ = radius} t := by
  refine ⟨exits.norm_eq, fun s on_boundary => ?_⟩
  by_contra beyond
  exact (exits.lt_norm s (not_le.mp beyond)).ne' on_boundary

theorem lt_one (exits : Exits p d radius t) (outside : radius < ‖p + d‖) : t < 1 := by
  by_contra later
  have within := exits.norm_le 1 zero_le_one (not_lt.mp later)
  rw [one_smul] at within
  exact outside.not_ge within

/-- The larger root is where the squared distance reaches the squared radius. -/
theorem of_largerRoot (moves : d ≠ 0) (inside : ‖p‖ ≤ radius) :
    Exits p d radius (largerRoot (‖d‖ ^ 2) (2 * dot p d) (‖p‖ ^ 2 - radius ^ 2)) := by
  have radius_nonneg : 0 ≤ radius := (norm_nonneg p).trans inside
  have length_pos : 0 < ‖d‖ ^ 2 := pow_pos (norm_pos_iff.mpr moves) 2
  have start_nonpos : ‖p‖ ^ 2 - radius ^ 2 ≤ 0 :=
    sub_nonpos.mpr (pow_le_pow_left₀ (norm_nonneg p) inside 2)
  have excess (s : ℝ) : ‖p + s • d‖ ^ 2 - radius ^ 2 =
      ‖d‖ ^ 2 * s ^ 2 + 2 * dot p d * s + (‖p‖ ^ 2 - radius ^ 2) := by
    rw [norm_add_smul_sq]
    ring
  have nonneg := largerRoot_nonneg (b := 2 * dot p d) length_pos start_nonpos
  refine ⟨nonneg, ?_, fun s s_nonneg s_le => ?_, fun s lt_s => ?_⟩
  · have square : ‖p + largerRoot (‖d‖ ^ 2) (2 * dot p d) (‖p‖ ^ 2 - radius ^ 2) • d‖ ^ 2 -
        radius ^ 2 = 0 := by
      rw [excess, polynomial_eq_about_largerRoot length_pos start_nonpos, sub_self, zero_mul]
    exact (sq_eq_sq₀ (norm_nonneg _) radius_nonneg).mp (sub_eq_zero.mp square)
  · have square := polynomial_nonpos length_pos start_nonpos s_nonneg s_le
    rw [← excess] at square
    exact (sq_le_sq₀ (norm_nonneg _) radius_nonneg).mp (sub_nonpos.mp square)
  · have square := polynomial_pos length_pos start_nonpos lt_s
    rw [← excess] at square
    exact (sq_lt_sq₀ radius_nonneg (norm_nonneg _)).mp (sub_pos.mp square)

end Exits

theorem exists_boundaryIntersection (moves : d ≠ 0) (inside : ‖p‖ ≤ radius) :
    ∃ t, boundaryIntersection p d radius = .ok t ∧ Exits p d radius t := by
  refine ⟨largerRoot (‖d‖ ^ 2) (2 * dot p d) (‖p‖ ^ 2 - radius ^ 2), ?_,
    .of_largerRoot moves inside⟩
  have length_pos : 0 < ‖d‖ ^ 2 := pow_pos (norm_pos_iff.mpr moves) 2
  have start_nonpos : ‖p‖ ^ 2 - radius ^ 2 ≤ 0 :=
    sub_nonpos.mpr (pow_le_pow_left₀ (norm_nonneg p) inside 2)
  have discriminant_nonneg : 0 ≤ 2 * dot p d * (2 * dot p d) -
      4 * ‖d‖ ^ 2 * (‖p‖ ^ 2 - radius ^ 2) :=
    (sq_nonneg _).trans (sq_le_discriminant length_pos start_nonpos)
  have two : (2.0 : ℝ) = 2 := by norm_num
  have four : (4.0 : ℝ) = 4 := by norm_num
  unfold boundaryIntersection
  simp only [dot_self_eq, if_neg length_pos.not_ge, two, four, square_real, ← pow_two, bind,
    Except.bind, pure, Except.pure, Scalar.larger_real, Scalar.sqrt_real]
  rw [pow_two, max_eq_left discriminant_nonneg]
  rfl

/-- Along a direction that is not zero, from a point of the ball, the answer is the greatest number
at which the line is on the boundary; up to there the ray is in the ball, and a segment that ends
outside is cut before its end. -/
theorem boundaryIntersection_isGreatest (moves : d ≠ 0) (inside : norm p ≤ radius) :
    ∃ t, boundaryIntersection p d radius = .ok t ∧ 0 ≤ t ∧
      IsGreatest {s : ℝ | norm (p + s * d) = radius} t ∧
      (∀ s ∈ Set.Icc 0 t, norm (p + s * d) ≤ radius) ∧
      (radius < norm (p + d) → t < 1) := by
  obtain ⟨t, found, exits⟩ := exists_boundaryIntersection moves inside
  exact ⟨t, found, exits.nonneg, exits.isGreatest,
    fun s between => exits.norm_le s between.1 between.2, exits.lt_one⟩

theorem boundaryIntersection_isGreatest_chord :
    #v[(-1 : ℝ), 1] ≠ 0 ∧ norm #v[(1 : ℝ), 0] ≤ 1 ∧
      boundaryIntersection #v[(1 : ℝ), 0] #v[-1, 1] 1 = .ok 1 := by
  have moves : #v[(-1 : ℝ), 1] ≠ 0 := by
    intro zero
    have last := congrArg (fun v : Vector ℝ 2 => v[1]) zero
    norm_num at last
  have inside : norm #v[(1 : ℝ), 0] ≤ 1 := by
    rw [norm_eq_norm, norm_pair]
    norm_num
  refine ⟨moves, inside, ?_⟩
  have distance (s : ℝ) : norm (#v[(1 : ℝ), 0] + s * #v[(-1 : ℝ), 1]) =
      √((1 - s) ^ 2 + s ^ 2) := by
    have point : #v[(1 : ℝ), 0] + s * #v[(-1 : ℝ), 1] = #v[1 - s, s] := by
      rw [hmul_eq_smul]
      ext i hi
      interval_cases i <;> simp [sub_eq_add_neg]
    rw [point, norm_eq_norm, norm_pair]
  obtain ⟨t, found, -, ⟨on_boundary, upper⟩, -⟩ := boundaryIntersection_isGreatest moves inside
  have at_one : (1 : ℝ) ≤ t := upper (by
    change norm _ = _
    rw [distance]
    norm_num)
  have at_t : (1 - t) ^ 2 + t ^ 2 = 1 := by
    have root : √((1 - t) ^ 2 + t ^ 2) = 1 := (distance t).symm.trans on_boundary
    exact Real.sqrt_eq_one.mp root
  have t_eq : t = 1 := by nlinarith
  rw [found, t_eq]

end Ray

end Descent.Subproblem
