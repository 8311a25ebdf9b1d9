import Descent.Proofs.Real
import Descent.LineSearch.Armijo
import Descent.LineSearch.Wolfe
/-!
# Raised searches

Where all values along a ray are raised by one number, a search that is told so tries the same
steps and comes to the same answer: it only compares values with one another.
-/

namespace Descent

variable {m : Type → Type} [Monad m] [LawfulMonad m] (v : ℝ) (ray : Ray m ℝ)

def Ray.raised (ray : Ray m ℝ) : Ray m ℝ where
  value step := (· + v) <$> ray.value step
  slope := ray.slope

namespace Wolfe

def Target.raised (t : Target ℝ) : Target ℝ := { t with start := t.start + v }

def Bracket.raised (b : Bracket ℝ) : Bracket ℝ := { b with lowValue := b.lowValue + v }

def Trial.raised (t : Trial ℝ) : Trial ℝ := { t with value := t.value + v }

def Refinement.raised : Refinement ℝ → Refinement ℝ
  | .accepted step => .accepted step
  | .narrowed b => .narrowed (b.raised v)

def Extension.raised : Extension ℝ → Extension ℝ
  | .accepted step => .accepted step
  | .bracketed b => .bracketed (b.raised v)
  | .bounded step => .bounded step
  | .lengthened previous step => .lengthened (previous.raised v) step

variable (t : Target ℝ)

theorem tooHigh_raised (step trial : ℝ) :
    (t.raised v).tooHigh step (trial + v) = t.tooHigh step trial := by
  have compared : t.start + v + t.decrease * step * t.slope < trial + v ↔
      t.start + t.decrease * step * t.slope < trial := by
    rw [add_right_comm, add_lt_add_iff_right]
  simp only [Target.tooHigh, Target.raised, Scalar.isFinite_real, compared]

theorem refine_raised (b : Bracket ℝ) :
    refine (ray.raised v) (t.raised v) (b.raised v) = Refinement.raised v <$> refine ray t b := by
  unfold refine
  simp only [Ray.raised, bind_map_left, map_bind]
  refine bind_congr fun trial => ?_
  have compared : (b.raised v).lowValue ≤ trial + v ↔ b.lowValue ≤ trial :=
    add_le_add_iff_right v
  have middle : (b.raised v).middle = b.middle := rfl
  simp only [middle, tooHigh_raised, compared, apply_ite (Refinement.raised v <$> ·), map_bind,
    map_pure]
  rfl

theorem zoom_raised (k : Nat) (b : Bracket ℝ) (evaluations : Nat) :
    zoom (ray.raised v) (t.raised v) k (b.raised v) evaluations = zoom ray t k b evaluations := by
  induction k generalizing b evaluations with
  | zero => rfl
  | succ k ih =>
      unfold zoom
      rw [refine_raised, bind_map_left]
      refine bind_congr fun refinement => ?_
      cases refinement with
      | accepted step => rfl
      | narrowed b => exact if_congr Iff.rfl rfl (ih b _)

theorem settle_raised (b : Bracket ℝ) (evaluations : Nat) :
    settle (ray.raised v) (t.raised v) (b.raised v) evaluations = settle ray t b evaluations := by
  rw [settle, zoom_raised]
  rfl

theorem extend_raised (longest : ℝ) (isFirst : Bool) (previous : Trial ℝ) (step : ℝ) :
    extend (ray.raised v) (t.raised v) longest isFirst (previous.raised v) step =
      Extension.raised v <$> extend ray t longest isFirst previous step := by
  unfold extend
  simp only [Ray.raised, bind_map_left, map_bind]
  refine bind_congr fun value => ?_
  have compared : (previous.raised v).value ≤ value + v ↔ previous.value ≤ value :=
    add_le_add_iff_right v
  simp only [tooHigh_raised, compared, apply_ite (Extension.raised v <$> ·), map_bind, map_pure]
  rfl

theorem lengthen_raised (s : Settings ℝ) (trials : Nat) (isFirst : Bool) (previous : Trial ℝ)
    (step : ℝ) (evaluations : Nat) :
    lengthen (ray.raised v) (t.raised v) s trials isFirst (previous.raised v) step evaluations =
      lengthen ray t s trials isFirst previous step evaluations := by
  induction trials generalizing isFirst previous step evaluations with
  | zero => rfl
  | succ trials ih =>
      unfold lengthen
      rw [extend_raised, bind_map_left]
      refine bind_congr fun extension => ?_
      cases extension with
      | accepted step => rfl
      | bracketed b => exact settle_raised v ray t b _
      | bounded step => rfl
      | lengthened previous step => exact ih false previous step _

/-- The search for the strong conditions does not see by how much all values are raised. -/
theorem search_raised (s : Settings ℝ) (start : ℝ) (slope : m ℝ) :
    search (ray.raised v) s (some (start + v)) slope = search ray s (some start) slope := by
  unfold search
  simp only [pure_bind]
  refine bind_congr fun slope => if_congr Iff.rfl ?_ rfl
  exact lengthen_raised v ray ⟨start, slope, s.decrease, s.curvature⟩ s _ true ⟨0, start⟩ _ _

end Wolfe

namespace Armijo

theorem accepts_raised (decrease start slope step trial : ℝ) :
    accepts decrease (start + v) slope step (trial + v) =
      accepts decrease start slope step trial := by
  have compared : trial + v ≤ start + v + decrease * step * slope ↔
      trial ≤ start + decrease * step * slope := by
    rw [add_right_comm, add_le_add_iff_right]
  simp only [accepts, Scalar.isFinite_real, compared]

theorem backtrack_raised (s : Settings ℝ) (start slope : ℝ) (trials : Nat) (step : ℝ)
    (evaluations : Nat) :
    backtrack (ray.raised v).value s (start + v) slope trials step evaluations =
      backtrack ray.value s start slope trials step evaluations := by
  induction trials generalizing step evaluations with
  | zero => rfl
  | succ trials ih =>
      unfold backtrack
      simp only [Ray.raised, bind_map_left, accepts_raised]
      refine bind_congr fun trial => if_congr Iff.rfl rfl (if_congr Iff.rfl rfl ?_)
      exact ih _ _

theorem search_raised (s : Settings ℝ) (start slope : ℝ) (evaluations : Nat) :
    search (ray.raised v).value s (start + v) slope evaluations =
      search ray.value s start slope evaluations := by
  unfold search
  rw [backtrack_raised]

end Armijo

end Descent
