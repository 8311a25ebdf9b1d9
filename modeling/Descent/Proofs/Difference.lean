import Descent.Proofs.Linear.Derivative
import Descent.Difference.InPlace
/-!
# Central differences in exact arithmetic

Every probe leaves the buffer as it found it, so the differences made in one buffer are the ones
made at the point itself.  They are the partial derivatives wherever a function is quadratic along
the lines through the point.
-/

namespace Descent

namespace Difference

variable {n : Nat}

/-! ## The points -/

def displacement (i : Fin n) (h : ℝ) : Vector ℝ n := (0 : Vector ℝ n).set i h i.isLt

theorem shift_eq (x : Vector ℝ n) (i : Fin n) (h : ℝ) : shift x i h = x + displacement i h := by
  ext j hj
  simp only [shift, displacement, Vector.get_eq_getElem, Vector.getElem_set, Vector.getElem_add,
    Vector.getElem_zero]
  split_ifs with same
  · simp [same]
  · simp

theorem shiftBack_eq (x : Vector ℝ n) (i : Fin n) (h : ℝ) :
    shiftBack x i h = x - displacement i h := by
  ext j hj
  simp only [shiftBack, displacement, Vector.get_eq_getElem, Vector.getElem_set, Vector.getElem_sub,
    Vector.getElem_zero]
  split_ifs with same
  · simp [same]
  · simp

theorem dot_displacement (g : Vector ℝ n) (i : Fin n) (h : ℝ) :
    dot g (displacement i h) = g.get i * h := by
  rw [dot_eq_sum, Finset.sum_eq_single i]
  · simp [displacement]
  · intro j _ other
    have apart : (i : Nat) ≠ j := fun same => other (Fin.ext same.symm)
    simp [displacement, apart]
  · simp

theorem gradientStep_pos : 0 < (gradientStep : ℝ) := by
  unfold gradientStep
  norm_num

theorem stepAt_pos {ε : ℝ} (positive : 0 < ε) (a : ℝ) : 0 < stepAt ε a :=
  mul_pos positive (by simp)

/-- The points on both sides of a point along each coordinate, in the order in which they are
asked. -/
noncomputable def stencil (x : Vector ℝ n) (ε : ℝ) : List (Vector ℝ n) :=
  (List.finRange n).flatMap fun i =>
    let h := ε * max 1 |x.get i|
    [x + displacement i h, x - displacement i h]

theorem stencil_eq (x : Vector ℝ n) (ε : ℝ) :
    stencil x ε = (List.finRange n).flatMap fun i =>
      [shift x i (stepAt ε (x.get i)), shiftBack x i (stepAt ε (x.get i))] := by
  simp only [stencil, shift_eq, shiftBack_eq, stepAt, Scalar.larger_real, Scalar.abs_real]

/-! ## Sweeps over the coordinates -/

section Sweep

variable {m : Type → Type} [Monad m] [LawfulMonad m] {σ β P : Type}

/-- A sweep goes through the states that its entries go through. -/
theorem run_ofFnM {k : Nat} {sweep : Fin k → StateT σ m β} {answer : Fin k → m β}
    (state : Nat → σ)
    (passes : ∀ i : Fin k,
      (sweep i).run (state i) = (fun b => (b, state (i + 1))) <$> answer i) :
    (Vector.ofFnM sweep).run (state 0) = (fun v => (v, state k)) <$> Vector.ofFnM answer := by
  induction k with
  | zero => simp [Vector.ofFnM_zero]
  | succ k ih =>
      -- The last entry starts from the state that the others lead to.
      have before := ih fun i => passes i.castSucc
      have last := passes (Fin.last k)
      simp only [Fin.val_last] at last
      rw [Vector.ofFnM_succ, Vector.ofFnM_succ]
      simp [before, last]

variable {α : Type} [Scalar α]

theorem run_probe (f : Vector α n → m β) (x : Vector α n) (i : Fin n) (h : α) :
    (probe f x i h).run x =
      (do
        let above ← f (shift x i h)
        let below ← f (shiftBack x i h)
        pure ((above, below), x)) := by
  simp [probe, shift, shiftBack]

/-- What is computed in one buffer is the gradient at the point, which the buffer holds in the
end. -/
theorem gradientInPlace_eq (f : Vector α n → m α) (x : Vector α n) (ε : α) :
    gradientInPlace f x ε = (fun d => (d, x)) <$> gradient f x ε := by
  refine run_ofFnM (fun _ => x) fun i => ?_
  simp [run_probe]

theorem jacobianInPlace_eq (g : Vector α n → m (Vector α n)) (x : Vector α n) (ε : α) :
    jacobianInPlace g x ε = (fun columns => (columns, x)) <$> jacobianColumns g x ε := by
  refine run_ofFnM (fun _ => x) fun i => ?_
  simp [run_probe]

theorem hessianInPlace_eq (g : Vector α n → m (Vector α n)) (x : Vector α n) (ε : α) :
    hessianInPlace g x ε = (fun H => (H, x)) <$> hessian g x ε := by
  simp [hessianInPlace, hessian, jacobianInPlace_eq]

def recorded (f : P → m β) (y : P) : StateT (List P) m β := do
  modify (· ++ [y])
  f y

theorem run_recorded (f : P → m β) (y : P) (log : List P) :
    (recorded f y).run log = (fun b => (b, log ++ [y])) <$> f y := by
  simp [recorded]

theorem run_ofFnM_recorded {k : Nat} {sweep : Fin k → StateT (List P) m β} {answer : Fin k → m β}
    {points : Fin k → List P}
    (records : ∀ i log, (sweep i).run log = (fun b => (b, log ++ points i)) <$> answer i) :
    (Vector.ofFnM sweep).run [] =
      (fun v => (v, (List.finRange k).flatMap points)) <$> Vector.ofFnM answer := by
  have passes (i : Fin k) : (sweep i).run (((List.finRange k).take i).flatMap points) =
      (fun b => (b, ((List.finRange k).take (i + 1)).flatMap points)) <$> answer i := by
    rw [records, List.take_add_one]
    simp
  have swept := run_ofFnM (fun i => ((List.finRange k).take i).flatMap points) passes
  simpa [List.take_of_length_le] using swept

end Sweep

section Real

variable {m : Type → Type} [Monad m] [LawfulMonad m]

/-- The gradient asks at the points of the stencil, and nowhere else. -/
theorem gradient_recorded (f : Vector ℝ n → m ℝ) (x : Vector ℝ n) (ε : ℝ) :
    (gradient (recorded f) x ε).run [] = (fun d => (d, stencil x ε)) <$> gradient f x ε := by
  rw [stencil_eq]
  refine run_ofFnM_recorded fun i log => ?_
  simp [run_recorded]

theorem hessian_recorded (g : Vector ℝ n → m (Vector ℝ n)) (x : Vector ℝ n) (ε : ℝ) :
    (hessian (recorded g) x ε).run [] = (fun H => (H, stencil x ε)) <$> hessian g x ε := by
  have columns_recorded : (jacobianColumns (recorded g) x ε).run [] =
      (fun columns => (columns, stencil x ε)) <$> jacobianColumns g x ε := by
    rw [stencil_eq]
    refine run_ofFnM_recorded fun i log => ?_
    simp [run_recorded]
  simp [hessian, columns_recorded]

end Real

/-! ## Exactness -/

/-- A function is a polynomial of degree at most two along a line through a point. -/
def IsQuadraticAlong (f : Vector ℝ n → ℝ) (x : Vector ℝ n) (i : Fin n) : Prop :=
  ∃ p : Polynomial ℝ, p.natDegree ≤ 2 ∧ ∀ t, f (x.set i t i.isLt) = p.eval t

theorem isQuadraticAlong_of_eq {f : Vector ℝ n → ℝ} {x : Vector ℝ n} {i : Fin n} (a b c : ℝ)
    (along : ∀ t, f (x.set i t i.isLt) = a * t ^ 2 + b * t + c) : IsQuadraticAlong f x i := by
  refine ⟨.C a * .X ^ 2 + .C b * .X + .C c, by compute_degree, fun t => ?_⟩
  simpa using along t

def HasPartialAt (f : Vector ℝ n → ℝ) (d : ℝ) (x : Vector ℝ n) (i : Fin n) : Prop :=
  HasDerivAt (fun t => f (x.set i t i.isLt)) d (x.get i)

theorem centralDifference_eq {p : Polynomial ℝ} (quadratic : p.natDegree ≤ 2) (a : ℝ) {h : ℝ}
    (nonzero : h ≠ 0) :
    (p.eval (a + h) - p.eval (a - h)) / (2.0 * h) = p.derivative.eval a := by
  have coefficients :=
    Polynomial.eq_quadratic_of_degree_le_two (Polynomial.degree_le_of_natDegree_le quadratic)
  rw [coefficients, div_eq_iff (mul_ne_zero (by norm_num) nonzero)]
  simp only [Polynomial.eval_add, Polynomial.eval_mul, Polynomial.eval_C, Polynomial.eval_pow,
    Polynomial.eval_X, Polynomial.derivative_add, Polynomial.derivative_mul,
    Polynomial.derivative_C, Polynomial.derivative_X_pow, Polynomial.derivative_X]
  norm_num
  ring

noncomputable def slope (f : Vector ℝ n → ℝ) (x : Vector ℝ n) (ε : ℝ) (i : Fin n) : ℝ :=
  let h := stepAt ε (x.get i)
  (f (shift x i h) - f (shiftBack x i h)) / (2.0 * h)

theorem hasPartialAt_slope {f : Vector ℝ n → ℝ} {x : Vector ℝ n} {ε : ℝ} {i : Fin n}
    (positive : 0 < ε) (along : IsQuadraticAlong f x i) : HasPartialAt f (slope f x ε i) x i := by
  obtain ⟨p, quadratic, agrees⟩ := along
  have nonzero : stepAt ε (x.get i) ≠ 0 := (stepAt_pos positive _).ne'
  have derivative := p.hasDerivAt (x.get i)
  rw [slope, shift, shiftBack, agrees, agrees, centralDifference_eq quadratic _ nonzero]
  exact derivative.congr_of_eventuallyEq (.of_forall agrees)

noncomputable def jacobian (g : Vector ℝ n → Vector ℝ n) (x : Vector ℝ n) (ε : ℝ) :
    SquareMatrix ℝ n :=
  .ofFn fun i j => slope (fun y => (g y).get i) x ε j

theorem gradient_pure (f : Vector ℝ n → ℝ) (x : Vector ℝ n) (ε : ℝ) :
    gradient (m := Id) f x ε = pure (Vector.ofFn (slope f x ε)) :=
  Vector.ofFnM_pure

theorem hessian_pure (g : Vector ℝ n → Vector ℝ n) (x : Vector ℝ n) (ε : ℝ) :
    hessian (m := Id) g x ε = pure (SquareMatrix.symmetricPart (jacobian g x ε)) := by
  have columns : jacobianColumns (m := Id) g x ε = pure (jacobian g x ε).transpose := by
    refine Vector.ofFnM_pure.trans (congrArg pure ?_)
    ext j hj i hi
    simp [jacobian, slope]
  rw [hessian, columns, map_pure, SquareMatrix.transpose_transpose]

/-- The differences made in one buffer are exact where the function is quadratic along the lines
through the point, they ask at the points of the stencil in turn, and they give the point back; the
Hessian is symmetric whatever the gradient is. -/
theorem differences_exact (x : Vector ℝ n) {ε : ℝ} (positive : 0 < ε) :
    checkStep ε = .ok () ∧
      (∀ f : Vector ℝ n → ℝ, ∃ d : Vector ℝ n,
        Id.run (gradientInPlace f x ε) = (d, x) ∧
          Id.run ((gradientInPlace (recorded (m := Id) f) x ε).run []) = ((d, x), stencil x ε) ∧
          ((∀ i, IsQuadraticAlong f x i) → ∀ i, HasPartialAt f (d.get i) x i)) ∧
      ∀ g : Vector ℝ n → Vector ℝ n, ∃ H : SquareMatrix ℝ n,
        Id.run (hessianInPlace g x ε) = (H, x) ∧
          Id.run ((hessianInPlace (recorded (m := Id) g) x ε).run []) = ((H, x), stencil x ε) ∧
          H.transpose = H ∧
          ((∀ i j, IsQuadraticAlong (fun y => (g y).get i) x j) →
            ∃ J : SquareMatrix ℝ n,
              (∀ i j, HasPartialAt (fun y => (g y).get i) ((J.get i).get j) x j) ∧
                ∀ i j, (H.get i).get j = ((J.get i).get j + (J.get j).get i) / 2) := by
  refine ⟨if_neg (not_le.mpr positive),
    fun f => ⟨.ofFn (slope f x ε), ?_, ?_, fun along i => ?_⟩,
    fun g => ⟨(jacobian g x ε).symmetricPart, ?_, ?_, SquareMatrix.symmetricPart_symmetric _,
      fun along => ⟨jacobian g x ε, fun i j => ?_, fun i j => ?_⟩⟩⟩
  · rw [gradientInPlace_eq, gradient_pure]
    rfl
  · rw [gradientInPlace_eq, StateT.run_map, gradient_recorded, gradient_pure]
    rfl
  · simpa using hasPartialAt_slope positive (along i)
  · rw [hessianInPlace_eq, hessian_pure]
    rfl
  · rw [hessianInPlace_eq, StateT.run_map, hessian_recorded, hessian_pure]
    rfl
  · simpa [jacobian] using hasPartialAt_slope positive (along i j)
  · simp only [SquareMatrix.symmetricPart, Vector.get_eq_getElem, SquareMatrix.getElem_ofFn]
    norm_num
    ring

/-- The function below has degree four, and the matrix of derivatives is not symmetric. -/
theorem differences_exact_biquadratic :
    let x : Vector ℝ 2 := #v[3, -2]
    let f : Vector ℝ 2 → ℝ := fun y => y[0] ^ 2 * y[1] ^ 2
    let g : Vector ℝ 2 → Vector ℝ 2 := fun y => #v[y[0] ^ 2 * y[1], y[0] + y[1] ^ 2]
    (0 : ℝ) < 1 / 2 ∧
      (∃ d, Id.run (gradientInPlace f x (1 / 2)) = (d, x) ∧ ∀ i, HasPartialAt f (d.get i) x i) ∧
      ∃ H J : SquareMatrix ℝ 2,
        Id.run (hessianInPlace g x (1 / 2)) = (H, x) ∧
          (∀ i j, HasPartialAt (fun y => (g y).get i) ((J.get i).get j) x j) ∧
          ∀ i j, (H.get i).get j = ((J.get i).get j + (J.get j).get i) / 2 := by
  intro x f g
  have positive : (0 : ℝ) < 1 / 2 := by norm_num
  obtain ⟨-, gradients, hessians⟩ := differences_exact x positive
  obtain ⟨d, gradient_eq, -, partials⟩ := gradients f
  obtain ⟨H, hessian_eq, -, -, averages⟩ := hessians g
  have f_along (i : Fin 2) : IsQuadraticAlong f x i := by
    fin_cases i
    · exact isQuadraticAlong_of_eq 4 0 0 fun t => show t ^ 2 * (-2) ^ 2 = _ by ring
    · exact isQuadraticAlong_of_eq 9 0 0 fun t => show (3 : ℝ) ^ 2 * t ^ 2 = _ by ring
  have g_along (i j : Fin 2) : IsQuadraticAlong (fun y => (g y).get i) x j := by
    fin_cases i <;> fin_cases j
    · exact isQuadraticAlong_of_eq (-2) 0 0 fun t => show t ^ 2 * (-2) = _ by ring
    · exact isQuadraticAlong_of_eq 0 9 0 fun t => show (3 : ℝ) ^ 2 * t = _ by ring
    · exact isQuadraticAlong_of_eq 0 1 4 fun t => show t + (-2) ^ 2 = _ by ring
    · exact isQuadraticAlong_of_eq 1 0 3 fun t => show (3 : ℝ) + t ^ 2 = _ by ring
  obtain ⟨J, derivatives, average⟩ := averages g_along
  exact ⟨positive, ⟨d, gradient_eq, partials f_along⟩, H, J, hessian_eq, derivatives, average⟩

end Difference

end Descent
