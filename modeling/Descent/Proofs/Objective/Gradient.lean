import Descent.Proofs.Linear.Derivative
import Descent.Objective.Quadratic
import Descent.Objective.Rosenbrock
import Descent.Objective.Wood
/-!
# Exact derivatives

The gradients of the functions that are supplied by name are their derivatives, whatever the
buffers held that they are written to.  In the chained Rosenbrock function a coordinate leads one
term and follows in another; the derivative is summed over the terms, the gradient over the
coordinates, and the two sums are one.
-/

namespace Descent

variable {n : Nat}

namespace Rosenbrock

/-! ## The chained Rosenbrock function -/

theorem link_real (a b : ℝ) : link a b = 100 * (a ^ 2 - b) ^ 2 + (a - 1) ^ 2 := by
  unfold link coupling
  norm_num1
  ring

theorem headSlope_real (a b : ℝ) : headSlope a b = 400 * a * (a ^ 2 - b) + 2 * (a - 1) := by
  unfold headSlope coupling
  norm_num1
  ring

theorem tailSlope_real (a b : ℝ) : tailSlope a b = 200 * (a ^ 2 - b) := by
  unfold tailSlope coupling
  norm_num1
  ring

theorem chain_eq_sum {l : List ℝ} {k : Nat} (length_eq : l.length = k + 1) :
    chain l = ∑ i : Fin k, link l[i] l[i.val + 1] := by
  induction l generalizing k with
  | nil => cases length_eq
  | cons a rest ih =>
      cases k with
      | zero =>
          obtain rfl : rest = [] := List.length_eq_zero_iff.mp (by simpa using length_eq)
          simp
      | succ k =>
          obtain ⟨b, rest, rfl⟩ := List.exists_cons_of_length_eq_add_one (Nat.succ.inj length_eq)
          rw [chain_cons_cons, ih (Nat.succ.inj length_eq), Fin.sum_univ_succ]
          rfl

theorem value_eq_sum {k : Nat} (x : Vector ℝ (k + 1)) :
    value x = ∑ i : Fin k, link (x.get i.castSucc) (x.get i.succ) := by
  rw [value, chain_eq_sum x.length_toList]
  simp

/-- Each coordinate but the last leads a term, and each but the first follows in one. -/
theorem getElem_gradientInto (x out : Vector ℝ n) (j : Nat) (hj : j < n) :
    (gradientInto x out)[j] =
      (if h : j + 1 < n then headSlope x[j] x[j + 1] else 0) -
        if h : 0 < j then tailSlope x[j - 1] x[j] else 0 := by
  have leads : j < n - 1 ↔ j + 1 < n := by omega
  rw [gradientInto, writeGradient, Buffer.getElem_combine]
  simp only [Buffer.overwrite, Buffer.getElem_combine, slopes]
  cases j with
  | zero => simp [leads]
  | succ j =>
      have follows : j < n - 1 := by omega
      simp [leads, follows]

theorem dot_gradientInto {k : Nat} (x out v : Vector ℝ (k + 1)) :
    dot (gradientInto x out) v = ∑ i : Fin k,
      (headSlope (x.get i.castSucc) (x.get i.succ) * v.get i.castSucc -
        tailSlope (x.get i.castSucc) (x.get i.succ) * v.get i.succ) := by
  simp only [dot_eq_sum, Vector.get_eq_getElem, getElem_gradientInto, sub_mul,
    Finset.sum_sub_distrib]
  congr 1
  · rw [Fin.sum_univ_castSucc]
    simp
  · rw [Fin.sum_univ_succ]
    simp

theorem hasFDerivAt_link (i j : Fin n) (x : Vector ℝ n) :
    HasFDerivAt (fun y : Vector ℝ n => link (y.get i) (y.get j))
      (headSlope (x.get i) (x.get j) • coordinate i -
        tailSlope (x.get i) (x.get j) • coordinate j) x := by
  have a := hasFDerivAt_coordinate i x
  have b := hasFDerivAt_coordinate j x
  have parabola := (((a.pow 2).sub b).pow 2).const_mul 100
  simp only [link_real, headSlope_real, tailSlope_real]
  refine (parabola.add ((a.sub_const 1).pow 2)).congr_fderiv ?_
  ext v
  simp
  ring

theorem hasGradientAt_value (x out : Vector ℝ n) : HasGradientAt value (gradientInto x out) x := by
  cases n with
  | zero =>
      have : Subsingleton (Vector ℝ 0) := coordinates_injective.subsingleton
      refine hasGradientAt_of_dot (hasFDerivAt_of_subsingleton value x) fun v => ?_
      simp [dot_eq_sum]
  | succ k =>
      have terms := HasFDerivAt.fun_sum fun (i : Fin k) (_ : i ∈ Finset.univ) =>
        hasFDerivAt_link i.castSucc i.succ x
      refine hasGradientAt_of_dot (terms.congr_of_eventuallyEq (.of_forall value_eq_sum))
        fun v => ?_
      rw [dot_gradientInto]
      simp

end Rosenbrock

namespace Wood

/-! ## The Wood function -/

theorem valueOf_real (a b c d : ℝ) : valueOf a b c d =
    100 * (a ^ 2 - b) ^ 2 + (1 - a) ^ 2 + 90 * (c ^ 2 - d) ^ 2 + (1 - c) ^ 2 +
      101 / 10 * ((1 - b) ^ 2 + (1 - d) ^ 2) + 99 / 5 * (1 - b) * (1 - d) := by
  unfold valueOf sq
  norm_num1
  ring

theorem hasGradientAt_value (x out : Vector ℝ 4) : HasGradientAt value (gradientInto x out) x := by
  have a := hasFDerivAt_coordinate 0 x
  have b := hasFDerivAt_coordinate 1 x
  have c := hasFDerivAt_coordinate 2 x
  have d := hasFDerivAt_coordinate 3 x
  have first := ((((a.pow 2).sub b).pow 2).const_mul 100).add ((a.const_sub 1).pow 2)
  have second := (first.add ((((c.pow 2).sub d).pow 2).const_mul 90)).add ((c.const_sub 1).pow 2)
  have squares := (((b.const_sub 1).pow 2).add ((d.const_sub 1).pow 2)).const_mul (101 / 10)
  have mixed := ((b.const_sub 1).const_mul (99 / 5)).mul (d.const_sub 1)
  have value_eq (y : Vector ℝ 4) :=
    valueOf_real (y.get 0) (y.get 1) (y.get 2) (y.get 3)
  refine hasGradientAt_of_dot
    (((second.add squares).add mixed).congr_of_eventuallyEq (.of_forall value_eq)) fun v => ?_
  rw [gradientInto, writeGradient, Buffer.overwrite_zero, dot_eq_sum, Fin.sum_univ_four]
  simp [gradientOf, sq]
  norm_num1
  ring

end Wood

namespace Quadratic

/-! ## Quadratic functions -/

variable {q : Quadratic ℝ n}

theorem hasGradientAt_value (symmetric : q.matrix.transpose = q.matrix) (x : Vector ℝ n) :
    HasGradientAt q.value (q.gradient x) x := by
  have half := (hasFDerivAt_id (𝕜 := ℝ) x).const_smul (0.5 : ℝ)
  have form := half.inner ℝ (q.matrix.hasFDerivAt_mulVec x)
  have linear := (hasFDerivAt_const (𝕜 := ℝ) q.vector x).inner ℝ (hasFDerivAt_id x)
  refine hasGradientAt_of_dot ((form.sub linear).add_const q.constant) fun v => ?_
  calc
    _ = dot ((0.5 : ℝ) • x) (q.matrix.mulVec v) + dot ((0.5 : ℝ) • v) (q.matrix.mulVec x) -
        dot q.vector v := by simp [← dot_eq_inner]
    _ = dot (q.matrix.mulVec x) v - dot q.vector v := by
      rw [dot_smul_left, dot_smul_left, SquareMatrix.dot_mulVec_comm symmetric x v,
        dot_comm (q.matrix.mulVec x) v]
      norm_num
      ring
    _ = dot (q.gradient x) v := (dot_sub_left _ _ _).symm

theorem gradient_pair (a b c d e f k x y : ℝ) :
    gradient ⟨#v[#v[a, b], #v[c, d]], #v[e, f], k⟩ #v[x, y] =
      #v[a * x + b * y - e, c * x + d * y - f] := by
  ext i hi
  rw [gradient, Vector.getElem_sub, SquareMatrix.getElem_mulVec, dot_eq_sum, Fin.sum_univ_two]
  obtain rfl | rfl : i = 0 ∨ i = 1 := by omega
  · simp
  · simp

theorem hasFDerivAt_gradient (q : Quadratic ℝ n) (x : Vector ℝ n) :
    HasFDerivAt q.gradient q.matrix.toLinear x :=
  (q.matrix.hasFDerivAt_mulVec x).sub_const q.vector

theorem hasHessianAt_value (symmetric : q.matrix.transpose = q.matrix) (x : Vector ℝ n) :
    HasHessianAt q.value q.matrix x :=
  ⟨q.gradient, .of_forall (hasGradientAt_value symmetric), q.hasFDerivAt_gradient x⟩

end Quadratic

/-- Whatever the buffers held, what is written over them is the derivative: the gradients of the
chained Rosenbrock function in any number of coordinates, of the Wood function, and of a quadratic
function with a symmetric matrix, which is its second derivative. -/
theorem gradients_exact :
    (∀ (n : Nat) (x out : Vector ℝ n),
      HasGradientAt Rosenbrock.value (Rosenbrock.gradientInto x out) x) ∧
    (∀ x out : Vector ℝ 4, HasGradientAt Wood.value (Wood.gradientInto x out) x) ∧
    ∀ (n : Nat) (q : Quadratic ℝ n), q.matrix.transpose = q.matrix →
      ∀ (x out : Vector ℝ n) (rows : SquareMatrix ℝ n),
        HasGradientAt q.value (Buffer.overwrite 0 (q.gradient x) out) x ∧
          HasHessianAt q.value (Buffer.overwrite 0 q.matrix rows) x := by
  refine ⟨fun n => Rosenbrock.hasGradientAt_value, Wood.hasGradientAt_value, ?_⟩
  intro n q symmetric x out rows
  rw [Buffer.overwrite_zero, Buffer.overwrite_zero]
  exact ⟨Quadratic.hasGradientAt_value symmetric x, Quadratic.hasHessianAt_value symmetric x⟩

theorem gradients_exact_two_variables :
    let q : Quadratic ℝ 2 := ⟨#v[#v[2, 1], #v[1, 3]], #v[1, 2], 5⟩
    q.matrix.transpose = q.matrix ∧
      HasGradientAt q.value (Buffer.overwrite 0 (q.gradient #v[1, -1]) #v[7, 7]) #v[1, -1] ∧
      q.gradient #v[1, -1] = #v[0, -4] := by
  intro q
  have symmetric : q.matrix.transpose = q.matrix := rfl
  refine ⟨symmetric, (gradients_exact.2.2 2 q symmetric #v[1, -1] #v[7, 7] q.matrix).1, ?_⟩
  rw [Quadratic.gradient_pair]
  exact congrArg₂ (fun a b => #v[a, b]) (by norm_num) (by norm_num)

end Descent
