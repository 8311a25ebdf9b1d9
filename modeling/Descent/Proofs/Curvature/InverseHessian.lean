import Descent.Proofs.Curvature.History
/-!
# The inverse Hessian of a history

The two-loop recursion multiplies by the matrix that the update formula of Broyden,
Fletcher, Goldfarb and Shanno builds from the stored pairs, oldest first, on top of the
scaled identity that the newest pair suggests.
-/

namespace Descent.CurvatureHistory

open Matrix

variable {n : Nat}

/-- The update of an inverse Hessian by a pair: `(I - ρ s yᵀ) B (I - ρ y sᵀ) + ρ s sᵀ`. -/
noncomputable def updateInverse (B : Matrix (Fin n) (Fin n) ℝ)
    (pair : Vector ℝ n × Vector ℝ n) : Matrix (Fin n) (Fin n) ℝ :=
  let s := coordinates pair.1
  let y := coordinates pair.2
  let ρ := 1 / dot pair.1 pair.2
  (1 - ρ • vecMulVec s y) * B * (1 - ρ • vecMulVec y s) + ρ • vecMulVec s s

noncomputable def inverseHessian (scale : ℝ) (pairs : List (Vector ℝ n × Vector ℝ n)) :
    Matrix (Fin n) (Fin n) ℝ :=
  pairs.foldl updateInverse (scale • 1)

theorem shear_mulVec (ρ : ℝ) (s y v : Fin n → ℝ) :
    (1 - ρ • vecMulVec y s) *ᵥ v = v - (ρ * (s ⬝ᵥ v)) • y := by
  rw [sub_mulVec, one_mulVec, smul_mulVec, vecMulVec_mulVec, op_smul_eq_smul, smul_smul]

theorem updateInverse_mulVec (B : Matrix (Fin n) (Fin n) ℝ) (s y q : Vector ℝ n) :
    updateInverse B (s, y) *ᵥ coordinates q =
      let a := 1 / dot s y * dot s q
      let r := B *ᵥ coordinates (q - a • y)
      r + (a - 1 / dot s y * (coordinates y ⬝ᵥ r)) • coordinates s := by
  unfold updateInverse
  dsimp only
  have before : (1 - (1 / dot s y) • vecMulVec (coordinates y) (coordinates s)) *ᵥ coordinates q =
      coordinates (q - (1 / dot s y * dot s q) • y) := by
    rw [shear_mulVec, dotProduct_coordinates, coordinates_sub, coordinates_smul]
  rw [add_mulVec, ← mulVec_mulVec, ← mulVec_mulVec, before, shear_mulVec, smul_mulVec,
    vecMulVec_mulVec, op_smul_eq_smul, smul_smul, dotProduct_coordinates, sub_smul]
  abel

theorem sweep_cons (γ : ℝ) (s y q : Vector ℝ n)
    (older : List (Correction ℝ (Vector ℝ n) × Correction ℝ (Vector ℝ n))) :
    sweep γ ((correction (s, y), correction (s, y)) :: older) q =
      let a := 1 / dot s y * dot s q
      let r := sweep γ older (q - a • y)
      r + (a - 1 / dot s y * dot y r) • s := by
  simp only [sweep, correction, map_mul_eq_smul, hmul_eq_smul]

/-- Below the newest pair the recursion multiplies by the matrix of the older ones, whatever
vector the newest pair hands down to them. -/
theorem sweep_eq_mulVec (γ : ℝ) (newestFirst : List (Vector ℝ n × Vector ℝ n)) (q : Vector ℝ n) :
    coordinates (sweep γ (newestFirst.map fun pair => (correction pair, correction pair)) q) =
      inverseHessian γ newestFirst.reverse *ᵥ coordinates q := by
  induction newestFirst generalizing q with
  | nil => simp [sweep, inverseHessian, coordinates_smul, smul_mulVec]
  | cons pair older ih =>
      obtain ⟨s, y⟩ := pair
      rw [inverseHessian, List.reverse_cons, List.foldl_append, ← inverseHessian, List.foldl_cons,
        List.foldl_nil, updateInverse_mulVec, List.map_cons, sweep_cons]
      simp only [coordinates_add, coordinates_smul, ← dotProduct_coordinates y, ih]

/-- The two-loop recursion is the product with the inverse Hessian of the stored pairs, and
the identity when there is none. -/
theorem applyInverse_eq_mulVec {capacity : Int} {h : CurvatureHistory ℝ (Vector ℝ n)}
    (reached : Reached capacity h) (v : Vector ℝ n) :
    (h.pairs = [] → h.applyInverse v = v) ∧
      ∀ s y, h.pairs.getLast? = some (s, y) →
        coordinates (h.applyInverse v) =
          inverseHessian (dot s y / dot y y) h.pairs *ᵥ coordinates v := by
  obtain ⟨newestFirst, holds⟩ := reached.holds
  rw [holds.pairs_eq]
  cases newestFirst with
  | nil =>
      refine ⟨fun _ => ?_, fun s y newest => by simp at newest⟩
      rw [applyInverse, holds.steps]
      rfl
  | cons pair older =>
      refine ⟨fun none => by simp at none, fun s y newest => ?_⟩
      obtain rfl : pair = (s, y) := by simpa using newest
      rw [← sweep_eq_mulVec, ← holds.sweeps_eq, applyInverse, holds.steps, holds.changes]
      rfl

theorem applyInverse_eq_mulVec_two_pairs :
    ∃ h : CurvatureHistory ℝ (Vector ℝ 2), Reached 2 h ∧
      h.pairs = [(#v[1, 0], #v[2, 1]), (#v[1, 1], #v[1, 3])] ∧
      coordinates (h.applyInverse #v[5, 7]) =
        inverseHessian (dot #v[1, 1] #v[1, 3] / dot #v[1, 3] #v[1, 3]) h.pairs *ᵥ
          coordinates #v[5, 7] := by
  let empty : CurvatureHistory ℝ (Vector ℝ 2) := ⟨2, [], [], []⟩
  let h := ((empty.record #v[1, 0] #v[2, 1] 0).1.record #v[1, 1] #v[1, 3] 0).1
  have reached : Reached 2 h :=
    .record _ _ (.record _ _ (.create (by simp [create, greatestCapacity, empty])) le_rfl) le_rfl
  have stored : h.pairs = [(#v[1, 0], #v[2, 1]), (#v[1, 1], #v[1, 3])] := by
    have first : dot (#v[1, 0] : Vector ℝ 2) #v[2, 1] = 2 := by norm_num [dot_eq_sum]
    have second : dot (#v[1, 1] : Vector ℝ 2) #v[1, 3] = 4 := by norm_num [dot_eq_sum]
    simp [h, empty, record, push, first, second, quotient_real, enqueue, pairs]
  exact ⟨h, reached, stored,
    (applyInverse_eq_mulVec reached _).2 _ _ (by rw [stored]; rfl)⟩

end Descent.CurvatureHistory
