import Descent.Proofs.Real
/-!
# Extended real scalars

Exact arithmetic where a function may also take the values of an overflow: the reals with
two infinities and a value that is not a number.  Indefinite forms are not numbers, and such
a value is unrelated to every other.
-/

namespace Descent

/-- A real number, an infinity, or no number. -/
inductive Extended where
  | real (x : ℝ)
  | posInf
  | negInf
  | nan

namespace Extended

noncomputable section

def infinity (sign : ℝ) : Extended :=
  if 0 < sign then posInf else if sign < 0 then negInf else nan

def neg : Extended → Extended
  | real x => real (-x)
  | posInf => negInf
  | negInf => posInf
  | nan => nan

def add : Extended → Extended → Extended
  | real x, real y => real (x + y)
  | real _, posInf | posInf, real _ | posInf, posInf => posInf
  | real _, negInf | negInf, real _ | negInf, negInf => negInf
  | _, _ => nan

def mul : Extended → Extended → Extended
  | real x, real y => real (x * y)
  | real x, posInf | posInf, real x => infinity x
  | real x, negInf | negInf, real x => infinity (-x)
  | posInf, posInf | negInf, negInf => posInf
  | posInf, negInf | negInf, posInf => negInf
  | _, _ => nan

/-- A quotient; zero divides like a small positive number. -/
def div : Extended → Extended → Extended
  | real x, real y => if y = 0 then infinity x else real (x / y)
  | real _, posInf | real _, negInf => real 0
  | posInf, real y => if y < 0 then negInf else posInf
  | negInf, real y => if y < 0 then posInf else negInf
  | _, _ => nan

def lt : Extended → Extended → Prop
  | real x, real y => x < y
  | real _, posInf | negInf, real _ | negInf, posInf => True
  | _, _ => False

def le : Extended → Extended → Prop
  | real x, real y => x ≤ y
  | real _, posInf | negInf, real _ | negInf, posInf => True
  | posInf, posInf | negInf, negInf => True
  | _, _ => False

def sqrt : Extended → Extended
  | real x => if x < 0 then nan else real (Real.sqrt x)
  | posInf => posInf
  | _ => nan

def abs : Extended → Extended
  | real x => real |x|
  | posInf | negInf => posInf
  | nan => nan

def power (a : Extended) : (k : Nat) → Extended
  | 0 => real 1
  | k + 1 => mul (power a k) a

def isFinite : Extended → Bool
  | real _ => true
  | _ => false

instance : Zero Extended := ⟨real 0⟩
instance : One Extended := ⟨real 1⟩
instance : Neg Extended := ⟨neg⟩
instance : Add Extended := ⟨add⟩
instance : Sub Extended := ⟨fun a b => add a (neg b)⟩
instance : Mul Extended := ⟨mul⟩
instance : Div Extended := ⟨div⟩
instance : LT Extended := ⟨lt⟩
instance : LE Extended := ⟨le⟩
instance : OfScientific Extended := ⟨fun m s e => real (OfScientific.ofScientific m s e)⟩

instance : Scalar Extended where
  decLt := Classical.decRel _
  decLe := Classical.decRel _
  sqrt := sqrt
  abs := abs
  power := power
  isFinite := isFinite

end

@[simp] theorem zero_def : (0 : Extended) = real 0 := rfl

@[simp] theorem one_def : (1 : Extended) = real 1 := rfl

@[simp] theorem ofScientific_def (m : Nat) (s : Bool) (e : Nat) :
    (OfScientific.ofScientific m s e : Extended) = real (OfScientific.ofScientific m s e) := rfl

@[simp] theorem real_add (x y : ℝ) : real x + real y = real (x + y) := rfl

@[simp] theorem real_mul (x y : ℝ) : real x * real y = real (x * y) := rfl

@[simp] theorem real_neg (x : ℝ) : -real x = real (-x) := rfl

@[simp] theorem real_sub (x y : ℝ) : real x - real y = real (x - y) := by
  rw [sub_eq_add_neg]
  rfl

@[simp] theorem real_div {x y : ℝ} (nonzero : y ≠ 0) : real x / real y = real (x / y) :=
  if_neg nonzero

@[simp] theorem abs_real (x : ℝ) : Scalar.abs (real x) = real |x| := rfl

@[simp] theorem power_real (x : ℝ) (k : Nat) : Scalar.power (real x) k = real (x ^ k) := by
  induction k with
  | zero => exact congrArg real (pow_zero x).symm
  | succ k ih =>
      change mul (Scalar.power (real x) k) (real x) = _
      rw [ih, pow_succ]
      rfl

@[simp] theorem sqrt_real {x : ℝ} (nonneg : 0 ≤ x) :
    Scalar.sqrt (real x) = real (Real.sqrt x) := if_neg nonneg.not_gt

@[simp] theorem real_lt {x y : ℝ} : real x < real y ↔ x < y := Iff.rfl

@[simp] theorem real_le {x y : ℝ} : real x ≤ real y ↔ x ≤ y := Iff.rfl

theorem real_mul_negInf {x : ℝ} (positive : 0 < x) : real x * negInf = negInf := by
  change infinity (-x) = negInf
  rw [infinity, if_neg (by linarith), if_pos (by linarith)]

theorem le_of_lt {a b : Extended} (h : a < b) : a ≤ b := by
  cases a with
  | real x => cases b with
    | real y => exact (real_lt.mp h).le
    | posInf => trivial
    | negInf | nan => exact h.elim
  | negInf => cases b with
    | real _ | posInf => trivial
    | negInf | nan => exact h.elim
  | posInf | nan => exact h.elim

theorem lt_of_le_of_lt {a b c : Extended} (first : a ≤ b) (second : b < c) : a < c := by
  cases b with
  | real y => cases a with
    | real x => cases c with
      | real z => exact (real_le.mp first).trans_lt (real_lt.mp second)
      | posInf => trivial
      | negInf | nan => exact second.elim
    | negInf => cases c with
      | real _ | posInf => trivial
      | negInf | nan => exact second.elim
    | posInf | nan => exact first.elim
  | negInf => cases a with
    | negInf => exact second
    | real _ | posInf | nan => exact first.elim
  | posInf | nan => exact second.elim

instance : IsTrans Extended (· < ·) :=
  ⟨fun _ _ _ first second => lt_of_le_of_lt (le_of_lt first) second⟩

theorem not_lt_of_le {a b : Extended} (h : a ≤ b) : ¬ b < a := by
  cases a with
  | real x => cases b with
    | real y => exact not_lt.mpr (real_le.mp h)
    | posInf => exact id
    | negInf | nan => exact h.elim
  | posInf => cases b with
    | posInf => exact id
    | real _ | negInf | nan => exact h.elim
  | negInf => cases b <;> exact id
  | nan => cases b <;> exact h.elim

theorem lt_zero_of_not_le {a : Extended} (isNumber : a ≠ nan) (h : ¬ 0 ≤ a) : a < 0 := by
  cases a with
  | real x =>
      change x < 0
      exact lt_of_not_ge h
  | posInf => exact absurd trivial h
  | negInf => trivial
  | nan => exact absurd rfl isNumber

@[simp] theorem isFinite_real (x : ℝ) : Scalar.isFinite (real x) = true := rfl

theorem eq_real_of_isFinite {a : Extended} (finite : Scalar.isFinite a = true) :
    ∃ x, a = real x := by
  cases a with
  | real x => exact ⟨x, rfl⟩
  | posInf | negInf | nan => cases finite

theorem le_of_isChain {β : Type} {value : β → Extended} {x y : β} {older : List β}
    (finite : Scalar.isFinite (value y) = true)
    (falls : (y :: older).IsChain fun later earlier => value later < value earlier)
    (visited : x ∈ y :: older) : value y ≤ value x := by
  have pairs := List.isChain_iff_pairwise.mp falls
  rcases List.mem_cons.mp visited with rfl | isOlder
  · obtain ⟨v, value_eq⟩ := eq_real_of_isFinite finite
    rw [value_eq]
    exact real_le.mpr le_rfl
  · exact le_of_lt (List.rel_of_pairwise_cons pairs isOlder)

@[simp] theorem larger_real (x y : ℝ) : Scalar.larger (real x) (real y) = real (max x y) := by
  unfold Scalar.larger
  split_ifs with h
  · rw [max_eq_right (le_of_lt h)]
  · rw [max_eq_left (not_lt.mp h)]

@[simp] theorem smaller_real (x y : ℝ) : Scalar.smaller (real x) (real y) = real (min x y) := by
  unfold Scalar.smaller
  split_ifs with h
  · rw [min_eq_right (le_of_lt h)]
  · rw [min_eq_left (not_lt.mp h)]

end Extended

end Descent
