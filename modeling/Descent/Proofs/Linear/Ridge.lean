import Descent.Proofs.Linear.Definite
import Descent.Proofs.Linear.Tensor
/-!
# Systems with a ridge

Elimination solves the systems of a regular matrix and none of a singular one.  A singular
system is tried once more with the diagonal lifted; that has an answer unless the ridge, taken
negative, is an eigenvalue beside zero.
-/

namespace Descent.SquareMatrix

variable {n : Nat}

/-- No vector but zero is mapped to zero. -/
def IsRegular (A : SquareMatrix ℝ n) : Prop := ∀ x, A.mulVec x = 0 → x = 0

section Solve

variable {A : SquareMatrix ℝ n}

theorem isSome_solve? (A : SquareMatrix ℝ n) (b c : Vector ℝ n) :
    (solve? A b).isSome = (solve? A c).isSome := by
  induction n with
  | zero => rfl
  | succ n ih =>
      simp only [solve?]
      split
      · rfl
      · rw [Option.isSome_map, Option.isSome_map]
        exact ih _ _ _

/-- If one system is solved, all are, so that the matrix is onto and hence regular. -/
theorem isRegular_of_solve? {b x : Vector ℝ n} (found : solve? A b = some x) : A.IsRegular := by
  let map : Vector ℝ n →ₗ[ℝ] Vector ℝ n :=
    { toFun := A.mulVec, map_add' := mulVec_add A, map_smul' := mulVec_smul A }
  have onto : Function.Surjective map := by
    intro c
    have solved : (solve? A c).isSome = true := by
      rw [isSome_solve? A c b, found]
      rfl
    obtain ⟨y, solution⟩ := Option.isSome_iff_exists.mp solved
    exact ⟨y, mulVec_of_solve?_eq_some solution⟩
  have injective : Function.Injective map := LinearMap.injective_iff_surjective.mpr onto
  intro y vanishes
  exact injective (vanishes.trans (map_zero map).symm)

theorem solve?_eq_none (singular : ¬ A.IsRegular) (b : Vector ℝ n) : solve? A b = none := by
  cases solution : solve? A b with
  | none => rfl
  | some x => exact absurd (isRegular_of_solve? solution) singular

theorem solve_of_isRegular (regular : A.IsRegular) (b : Vector ℝ n) :
    ∃ x, A.solve b = .ok x ∧ A.mulVec x = b := by
  obtain ⟨x, solution, solves⟩ := exists_solve? regular b
  exact ⟨x, by rw [solve, solution], solves⟩

theorem solve_of_not_isRegular (singular : ¬ A.IsRegular) (b : Vector ℝ n) :
    A.solve b = .error .singular := by
  rw [solve, solve?_eq_none singular]

end Solve

section Ridge

variable {A : SquareMatrix ℝ n}

/-- The number by which a ridge is scaled: the largest of one and the magnitudes on the
diagonal. -/
def IsScale (A : SquareMatrix ℝ n) (scale : ℝ) : Prop :=
  IsGreatest (insert 1 (Set.range fun i => |A.diagonal.get i|)) scale

theorem magnitudes_diagonal (A : SquareMatrix ℝ n) :
    {a | a ∈ A.diagonal.toList.map Scalar.abs} = Set.range fun i => |A.diagonal.get i| := by
  ext a
  change a ∈ A.diagonal.toList.map Scalar.abs ↔ ∃ i, |A.diagonal.get i| = a
  simp only [List.mem_map, Vector.mem_toList_iff, Vector.mem_iff_getElem]
  constructor
  · rintro ⟨_, ⟨i, hi, rfl⟩, rfl⟩
    exact ⟨⟨i, hi⟩, rfl⟩
  · rintro ⟨i, rfl⟩
    exact ⟨A.diagonal.get i, ⟨i, i.isLt, rfl⟩, rfl⟩

theorem exists_isScale (A : SquareMatrix ℝ n) :
    ∃ scale, A.IsScale scale ∧ (0 < n → ridgeScale A.diagonal.toList = .ok scale) := by
  cases n with
  | zero =>
      refine ⟨1, ?_, fun absurd => (lt_irrefl 0 absurd).elim⟩
      simp [IsScale, isGreatest_singleton]
  | succ n =>
      obtain ⟨d, rest, diagonal_eq⟩ : ∃ d rest, A.diagonal.toList = d :: rest :=
        List.exists_cons_of_length_eq_add_one Vector.length_toList
      have largest := isGreatest_foldl_supremum |d| (rest.map Scalar.abs)
      have entries : |d| :: rest.map Scalar.abs = A.diagonal.toList.map Scalar.abs := by
        rw [diagonal_eq]
        rfl
      rw [entries, magnitudes_diagonal] at largest
      refine ⟨_, largest.insert 1, fun _ => ?_⟩
      rw [ridgeScale, diagonal_eq, ← Scalar.larger_real]
      rfl

theorem mulVec_addDiagonal (A : SquareMatrix ℝ n) (shift : ℝ) (x : Vector ℝ n) :
    (A.addDiagonal shift).mulVec x = A.mulVec x + shift • x := by
  ext i hi
  rw [Vector.getElem_add, getElem_mulVec, getElem_mulVec, dot_eq_sum, dot_eq_sum]
  simp [addDiagonal, add_mul, Finset.sum_add_distrib]

/-- A ridge restores regularity unless, taken negative, it is an eigenvalue. -/
theorem isRegular_addDiagonal_iff (shift : ℝ) :
    (A.addDiagonal shift).IsRegular ↔ ∀ x, A.mulVec x = -shift • x → x = 0 := by
  have moved (x : Vector ℝ n) : (A.addDiagonal shift).mulVec x = 0 ↔ A.mulVec x = -shift • x := by
    rw [mulVec_addDiagonal, add_eq_zero_iff_eq_neg, neg_smul]
  simp only [IsRegular, moved]

theorem ridgeSolve_of_isRegular (regular : A.IsRegular) (b : Vector ℝ n) (ridge : ℝ) :
    ∃ x, A.ridgeSolve b ridge = .ok x ∧ A.mulVec x = b := by
  obtain ⟨x, solution, solves⟩ := exists_solve? regular b
  exact ⟨x, ridgeSolve_of_solve? solution ridge, solves⟩

theorem ridgeSolve_of_not_isRegular (singular : ¬ A.IsRegular) {scale : ℝ}
    (isScale : A.IsScale scale) (b : Vector ℝ n) (ridge : ℝ) :
    A.ridgeSolve b ridge = (A.addDiagonal (ridge * scale)).solve b := by
  have nonempty : 0 < n := by
    refine Nat.pos_of_ne_zero ?_
    rintro rfl
    exact singular fun x _ => Vector.ext fun i hi => absurd hi (Nat.not_lt_zero i)
  obtain ⟨scale', isScale', computed⟩ := exists_isScale A
  obtain rfl : scale' = scale := isScale'.unique isScale
  rw [ridgeSolve, solve?_eq_none singular, computed nonempty]
  rfl

end Ridge

section Fallback

variable {A : SquareMatrix ℝ n} {scale : ℝ}

theorem ridgeSolve_of_eigenvalue (singular : ¬ A.IsRegular) (isScale : A.IsScale scale)
    {x : Vector ℝ n} (nonzero : x ≠ 0) {ridge : ℝ}
    (eigenvector : A.mulVec x = -(ridge * scale) • x) (b : Vector ℝ n) :
    A.ridgeSolve b ridge = .error .singular := by
  have lifted : ¬ (A.addDiagonal (ridge * scale)).IsRegular := fun regular =>
    nonzero ((isRegular_addDiagonal_iff _).mp regular x eigenvector)
  rw [ridgeSolve_of_not_isRegular singular isScale, solve_of_not_isRegular lifted]

/-- The system of a regular matrix is solved.  That of a singular one is solved with its diagonal
lifted by a ridge, unless the ridge, taken negative, is an eigenvalue; then there is no answer. -/
theorem ridgeSolve_ofRows_cases (A : SquareMatrix ℝ n) (b : Vector ℝ n) :
    ∃ scale, A.IsScale scale ∧
      (A.IsRegular → ∃ x,
        (Tensor.ofRows A).ridgeSolve (.ofVector b) defaultRidge = .ok (.ofVector x) ∧
          A.mulVec x = b) ∧
      (¬ A.IsRegular → (∀ x, A.mulVec x = -(1e-10 * scale) • x → x = 0) → ∃ x,
        (Tensor.ofRows A).ridgeSolve (.ofVector b) defaultRidge = .ok (.ofVector x) ∧
          A.mulVec x + (1e-10 * scale) • x = b) ∧
      (¬ A.IsRegular → (∃ x, x ≠ 0 ∧ A.mulVec x = -(1e-10 * scale) • x) →
        (Tensor.ofRows A).ridgeSolve (.ofVector b) defaultRidge = .error .singular) := by
  obtain ⟨scale, isScale, _⟩ := exists_isScale A
  rw [(Tensor.holds_ofRows A).ridgeSolve]
  refine ⟨scale, isScale, fun regular => ?_, fun singular away => ?_, ?_⟩
  · obtain ⟨x, answer, solves⟩ := ridgeSolve_of_isRegular regular b defaultRidge
    exact ⟨x, by rw [answer]; rfl, solves⟩
  · obtain ⟨x, answer, solves⟩ := solve_of_isRegular ((isRegular_addDiagonal_iff _).mpr away) b
    refine ⟨x, ?_, ?_⟩
    · rw [ridgeSolve_of_not_isRegular singular isScale, defaultRidge, answer]
      rfl
    · rw [← mulVec_addDiagonal]
      exact solves
  · rintro singular ⟨x, nonzero, eigenvector⟩
    exact congrArg (Tensor.ofVector <$> ·)
      (ridgeSolve_of_eigenvalue singular isScale nonzero eigenvector b)

/-- A singular matrix that its ridge makes singular again. -/
theorem ridgeSolve_fails_on_negative_diagonal :
    (Tensor.ofRows (#v[#v[0, 0], #v[0, -1e-10]] : SquareMatrix ℝ 2)).ridgeSolve
      (.ofVector #v[0, 0]) defaultRidge = .error .singular := by
  let A : SquareMatrix ℝ 2 := #v[#v[0, 0], #v[0, -1e-10]]
  have product (a b : ℝ) : A.mulVec #v[a, b] = #v[0, -1e-10 * b] := by
    ext i hi
    rw [getElem_mulVec, dot_eq_sum, Fin.sum_univ_two]
    obtain rfl | rfl : i = 0 ∨ i = 1 := by omega
    · simp [A]
    · simp [A]
  have singular : ¬ A.IsRegular := by
    intro regular
    have vanishes : A.mulVec #v[1, 0] = 0 := by
      rw [product, mul_zero]
      rfl
    have entry := congrArg (fun x : Vector ℝ 2 => x[0]) (regular _ vanishes)
    simp at entry
  have isScale : A.IsScale 1 := by
    refine ⟨Set.mem_insert _ _, ?_⟩
    rintro a (rfl | ⟨i, rfl⟩)
    · exact le_rfl
    · have entry : A.diagonal.get i = 0 ∨ A.diagonal.get i = -1e-10 := by
        revert i
        exact Fin.forall_fin_two.mpr ⟨.inl rfl, .inr rfl⟩
      dsimp only
      rcases entry with entry | entry
      · rw [entry]
        norm_num
      · rw [entry]
        norm_num
  have nonzero : (#v[0, 1] : Vector ℝ 2) ≠ 0 := by
    intro zero
    have entry := congrArg (fun x : Vector ℝ 2 => x[1]) zero
    simp at entry
  have eigenvector : A.mulVec #v[0, 1] = -((1e-10 : ℝ) * 1) • (#v[0, 1] : Vector ℝ 2) := by
    rw [product]
    ext i hi
    obtain rfl | rfl : i = 0 ∨ i = 1 := by omega
    · simp [← hmul_eq_smul]
    · simp [← hmul_eq_smul]
  rw [(Tensor.holds_ofRows A).ridgeSolve]
  exact congrArg (Tensor.ofVector <$> ·)
    (ridgeSolve_of_eigenvalue singular isScale nonzero eigenvector #v[0, 0])

end Fallback

end Descent.SquareMatrix
