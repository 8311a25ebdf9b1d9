import Descent.Proofs.Real
/-!
# The space of real vectors

`Vector ℝ n` as a real inner product space, whose inner product and norm are `dot` and
`norm`.
-/

namespace Descent

attribute [simp] Vector.get_eq_getElem

variable {n : Nat}

theorem foldl_add_eq_sum (f : Fin n → ℝ) :
    Fin.foldl n (fun sum i => sum + f i) 0 = ∑ i, f i := by
  induction n with
  | zero => simp
  | succ n ih => rw [Fin.foldl_succ_last, ih, Fin.sum_univ_castSucc]

theorem dot_eq_sum (x y : Vector ℝ n) : dot x y = ∑ i : Fin n, x.get i * y.get i :=
  foldl_add_eq_sum fun i : Fin n => x.get i * y.get i

def coordinates (x : Vector ℝ n) : Fin n → ℝ := x.get

@[simp] theorem coordinates_apply (x : Vector ℝ n) (i : Fin n) :
    coordinates x i = x.get i := rfl

theorem coordinates_injective : Function.Injective (coordinates (n := n)) := by
  intro x y h
  ext i hi
  exact congrFun h ⟨i, hi⟩

noncomputable instance vectorAddCommGroup : AddCommGroup (Vector ℝ n) :=
  coordinates_injective.addCommGroup coordinates
    (funext fun _ => by simp)
    (fun _ _ => funext fun _ => by simp)
    (fun _ => funext fun _ => by simp)
    (fun _ _ => funext fun _ => by simp)
    (fun _ _ => funext fun _ => by simp)
    (fun _ _ => funext fun _ => by simp)

noncomputable instance vectorModule : Module ℝ (Vector ℝ n) :=
  coordinates_injective.module ℝ
    ⟨⟨coordinates, funext fun _ => by simp⟩, fun _ _ => funext fun _ => by simp⟩
    (fun _ _ => funext fun _ => by simp)

@[simp] theorem hmul_eq_smul (a : ℝ) (x : Vector ℝ n) : a * x = a • x := rfl

@[simp] theorem map_mul_eq_smul (a : ℝ) (x : Vector ℝ n) : x.map (· * a) = a • x := by
  ext i hi
  simp [mul_comm]

theorem map_div_eq_smul (a : ℝ) (x : Vector ℝ n) : x.map (· / a) = a⁻¹ • x := by
  ext i hi
  simp [div_eq_inv_mul]

section Coordinates

variable (x y : Vector ℝ n)

theorem coordinates_add : coordinates (x + y) = coordinates x + coordinates y := by
  funext i
  simp

theorem coordinates_sub : coordinates (x - y) = coordinates x - coordinates y := by
  funext i
  simp

theorem coordinates_smul (a : ℝ) : coordinates (a • x) = a • coordinates x := by
  funext i
  simp

theorem dotProduct_coordinates : dotProduct (coordinates x) (coordinates y) = dot x y :=
  (dot_eq_sum x y).symm

end Coordinates

theorem dot_comm (x y : Vector ℝ n) : dot x y = dot y x := by
  simp only [dot_eq_sum, mul_comm]

theorem dot_add_left (x y z : Vector ℝ n) : dot (x + y) z = dot x z + dot y z := by
  simp [dot_eq_sum, add_mul, Finset.sum_add_distrib]

theorem dot_sub_left (x y z : Vector ℝ n) : dot (x - y) z = dot x z - dot y z := by
  simp [dot_eq_sum, sub_mul, Finset.sum_sub_distrib]

theorem dot_smul_left (a : ℝ) (x y : Vector ℝ n) : dot (a • x) y = a * dot x y := by
  simp [dot_eq_sum, mul_assoc, Finset.mul_sum]

theorem dot_add_right (x y z : Vector ℝ n) : dot x (y + z) = dot x y + dot x z := by
  simp only [dot_comm x, dot_add_left]

theorem dot_sub_right (x y z : Vector ℝ n) : dot x (y - z) = dot x y - dot x z := by
  simp only [dot_comm x, dot_sub_left]

theorem dot_smul_right (a : ℝ) (x y : Vector ℝ n) : dot x (a • y) = a * dot x y := by
  simp only [dot_comm x, dot_smul_left]

theorem dot_neg_right (x y : Vector ℝ n) : dot x (-y) = -dot x y := by
  simp [dot_eq_sum]

theorem dot_self_nonneg (x : Vector ℝ n) : 0 ≤ dot x x := by
  rw [dot_eq_sum]
  exact Finset.sum_nonneg fun i _ => mul_self_nonneg _

theorem eq_zero_of_dot_self {x : Vector ℝ n} (h : dot x x = 0) : x = 0 := by
  rw [dot_eq_sum, Finset.sum_eq_zero_iff_of_nonneg fun i _ => mul_self_nonneg _] at h
  ext i hi
  simpa using h ⟨i, hi⟩ (Finset.mem_univ _)

theorem dot_self_pos {x : Vector ℝ n} (nonzero : x ≠ 0) : 0 < dot x x :=
  (dot_self_nonneg x).lt_of_ne fun zero => nonzero (eq_zero_of_dot_self zero.symm)

@[reducible] noncomputable def innerProduct (n : Nat) : InnerProductSpace.Core ℝ (Vector ℝ n) where
  inner := dot
  conj_inner_symm x y := dot_comm y x
  re_inner_nonneg := dot_self_nonneg
  add_left := dot_add_left
  smul_left x y a := dot_smul_left a x y
  definite _ := eq_zero_of_dot_self

noncomputable instance vectorNormedAddCommGroup : NormedAddCommGroup (Vector ℝ n) :=
  (innerProduct n).toNormedAddCommGroup

noncomputable instance vectorInnerProductSpace : InnerProductSpace ℝ (Vector ℝ n) :=
  .ofCore (innerProduct n).toCore

noncomputable def coordinatesEquiv (n : Nat) : Vector ℝ n ≃ₗ[ℝ] (Fin n → ℝ) where
  toFun := coordinates
  invFun := Vector.ofFn
  map_add' _ _ := funext fun _ => by simp
  map_smul' _ _ := funext fun _ => by simp
  left_inv x := coordinates_injective (funext fun _ => by simp)
  right_inv f := funext fun _ => by simp

instance vectorFiniteDimensional : FiniteDimensional ℝ (Vector ℝ n) :=
  (coordinatesEquiv n).symm.finiteDimensional

instance vectorCompleteSpace : CompleteSpace (Vector ℝ n) := FiniteDimensional.complete ℝ _

theorem dot_eq_inner (x y : Vector ℝ n) : dot x y = inner ℝ x y := rfl

@[simp] theorem norm_eq_norm (x : Vector ℝ n) : norm x = ‖x‖ := rfl

theorem norm_singleton (a : ℝ) : ‖#v[a]‖ = |a| := by
  have square : dot #v[a] #v[a] = a ^ 2 := by
    simp [dot_eq_sum, sq]
  rw [← norm_eq_norm, norm, square]
  exact Real.sqrt_sq_eq_abs a

theorem norm_pair (a b : ℝ) : ‖#v[a, b]‖ = √(a ^ 2 + b ^ 2) := by
  have square : dot #v[a, b] #v[a, b] = a ^ 2 + b ^ 2 := by
    rw [dot_eq_sum, Fin.sum_univ_two]
    simp [sq]
  rw [← norm_eq_norm, norm, square, Scalar.sqrt_real]

theorem dot_self_about (x y : Vector ℝ n) :
    dot y y = dot x x + dot ((2 : ℝ) • x) (y - x) + ‖y - x‖ ^ 2 := by
  rw [← real_inner_self_eq_norm_sq, ← dot_eq_inner]
  simp only [dot_sub_left, dot_sub_right, dot_smul_left, dot_comm y x]
  ring

end Descent
