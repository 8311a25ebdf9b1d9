import Descent.Proofs.LineSearch.Decrease
import Descent.Proofs.Square
/-!
# The contract of the strong Wolfe search

A step that the search returns is positive and at most the longest, the function is finite and
low enough there, and it is flat enough too, unless the search had to stop with the low end of a
bracket.  Nothing is asked of the function beyond a finite start, and the gradient may be any.
-/

namespace Descent.Wolfe

open Extended

def Settings.extend (s : Settings ℝ) : Settings Extended where
  step := real s.step
  decrease := real s.decrease
  curvature := real s.curvature
  trials := s.trials
  longest := real s.longest

theorem Settings.suits {s : Settings ℝ} (valid : s.check = .ok ()) (longest_pos : 0 < s.longest) :
    s.extend.Suits s.decrease s.step s.longest := by
  unfold Settings.check at valid
  split_ifs at valid with constants step
  exact ⟨rfl, constants.1, rfl, not_le.mp step, rfl, longest_pos⟩

section Numbers

variable {φ : Extended → Extended} {start decrease : ℝ} {slope step : Extended}

theorem exists_real_of_decreases (decrease_pos : 0 < decrease) {a : ℝ}
    (decreases : SufficientDecrease φ (real start) (real decrease) slope (real a)) :
    ∃ d v : ℝ, slope = real d ∧ d < 0 ∧ φ (real a) = real v ∧ v ≤ start + decrease * a * d := by
  obtain ⟨slope_neg, step_pos, finite, le_bound, _⟩ := decreases
  obtain ⟨v, value_eq⟩ := eq_real_of_isFinite finite
  rw [value_eq] at le_bound
  cases slope with
  | real d => exact ⟨d, v, rfl, slope_neg, value_eq, le_bound⟩
  | negInf =>
      rw [real_mul, real_mul_negInf (mul_pos decrease_pos (real_lt.mp step_pos))] at le_bound
      exact le_bound.elim
  | posInf | nan => exact slope_neg.elim

theorem exists_real_of_le {bound : ℝ} (positive : 0 < step) (le : step ≤ real bound) :
    ∃ a, step = real a := by
  cases step with
  | real a => exact ⟨a, rfl⟩
  | posInf => exact le.elim
  | negInf | nan => exact positive.elim

theorem exists_real_of_abs_le {y : Extended} {bound : ℝ} (le : Scalar.abs y ≤ real bound) :
    ∃ e : ℝ, y = real e ∧ |e| ≤ bound := by
  cases y with
  | real e => exact ⟨e, rfl, le⟩
  | posInf | negInf | nan => exact le.elim

theorem exists_real_of_isFlat {t : Target Extended} {curvature d : ℝ} {y : Extended}
    (curvature_eq : t.curvature = real curvature) (slope_eq : t.slope = real d)
    (flat : t.isFlat y = true) : ∃ e : ℝ, y = real e ∧ |e| ≤ -curvature * d := by
  rw [Target.isFlat, decide_eq_true_eq, curvature_eq, slope_eq, real_neg, real_mul] at flat
  exact exists_real_of_abs_le flat

theorem abs_sub_le_of_isCollapsed {b : Bracket Extended} {low high : ℝ} (low_eq : b.low = real low)
    (high_eq : b.high = real high) (collapsed : b.isCollapsed = true) :
    |high - low| ≤ 1e-16 * max 1 |low| := by
  rw [Bracket.isCollapsed, decide_eq_true_eq, low_eq, high_eq, real_sub, abs_real, abs_real,
    one_def, larger_real, leastStep, ofScientific_def, real_mul, real_le] at collapsed
  exact collapsed

end Numbers

section Ends

variable {φ φ' : Extended → Extended} {s : Settings Extended} {start decrease first longest : ℝ}
  {slope step : Extended}

/-- A bracket that a search stops at is narrow beside its low end, or it is what sixty halvings
leave of one that is no longer than the longest step. -/
theorem Stops.narrow (suits : s.Suits decrease first longest) {b : Bracket Extended}
    (stops : Stops (.ofFunctions φ φ') s (real start) slope b) {low high : ℝ}
    (tested : b.Tested φ (s.target (real start) slope) low high) :
    |high - low| ≤ 1e-16 * max 1 |low| ∨
      Zooms (.ofFunctions φ φ') s (real start) slope 0 b ∧ |high - low| * 2 ^ 60 ≤ longest := by
  cases stops with
  | collapsed _ _ collapsed =>
      exact .inl (abs_sub_le_of_isCollapsed tested.low_eq tested.high_eq collapsed)
  | exhausted zooms =>
      obtain ⟨_, low', high', tested', _, width⟩ := zooms.tested suits
      obtain rfl : low = low' := real.inj (tested.low_eq.symm.trans tested'.low_eq)
      obtain rfl : high = high' := real.inj (tested.high_eq.symm.trans tested'.high_eq)
      rw [pow_zero, mul_one] at width
      exact .inr ⟨zooms, width⟩

theorem Returns.flat_or_stopped (returns : Returns (.ofFunctions φ φ') s (real start) slope step) :
    (s.target (real start) slope).isFlat (φ' step) = true ∨
      ∃ b, Stops (.ofFunctions φ φ') s (real start) slope b ∧ b.step? = some step := by
  cases returns with
  | trial _ accepted =>
      obtain ⟨rfl, _, flat⟩ := extend_eq_accepted accepted
      exact .inl flat
  | middle _ accepted =>
      obtain ⟨rfl, _, flat⟩ := refine_eq_accepted accepted
      exact .inl flat
  | stopped stops found => exact .inr ⟨_, stops, found⟩

end Ends

section Search

variable {n : Nat}

/-- Whatever the function and the gradient are away from a finite start, a step that the search
returns is positive and at most the longest, the value there is a number that is low enough, and
the slope there is flat enough; or else the step is the low end of a bracket that had become too
narrow or had been halved sixty times. -/
theorem search_returns_wolfe {s : Settings ℝ} (valid : s.check = .ok ())
    (longest_pos : 0 < s.longest) (value : Vector Extended n → Extended)
    (gradient : Vector Extended n → Vector Extended n) (x direction : Vector Extended n)
    (known : Option Extended) (slope : Id Extended) {start : ℝ}
    (start_eq : known.getD ((Ray.along value gradient x direction).value 0).run = real start)
    {step : Extended} {evaluations : Nat}
    (ok : search (.along value gradient x direction) s.extend known slope =
      .ok (step, evaluations)) :
    ∃ a d v : ℝ, step = real a ∧ 0 < a ∧ a ≤ s.longest ∧ slope.run = real d ∧ d < 0 ∧
      value (x + real a * direction) = real v ∧ v ≤ start + s.decrease * a * d ∧
      ((∃ e : ℝ, dot (gradient (x + real a * direction)) direction = real e ∧
          |e| ≤ -s.curvature * d) ∨
        ∃ b high, Stops (.along value gradient x direction) s.extend (real start) slope.run b ∧
          b.low = real a ∧ b.high = real high ∧
          (|high - a| ≤ 1e-16 * max 1 a ∨
            Zooms (.along value gradient x direction) s.extend (real start) slope.run 0 b ∧
              |high - a| * 2 ^ 60 ≤ s.longest)) := by
  obtain ⟨_, returns⟩ := returns_of_search ok
  rw [start_eq] at returns
  have suits := s.suits valid longest_pos
  obtain ⟨decreases, le_longest⟩ := returns.decreases suits
  obtain ⟨a, rfl⟩ := exists_real_of_le decreases.step_pos le_longest
  obtain ⟨d, v, slope_eq, slope_neg, value_eq, low⟩ :=
    exists_real_of_decreases suits.decrease_pos decreases
  have step_pos : 0 < a := decreases.step_pos
  refine ⟨a, d, v, rfl, step_pos, le_longest, slope_eq, slope_neg, value_eq, low, ?_⟩
  rcases returns.flat_or_stopped with flat | ⟨b, stops, found⟩
  · exact .inl (exists_real_of_isFlat rfl slope_eq flat)
  · obtain ⟨low, high, tested, _⟩ := stops.tested suits
    obtain rfl : a = low := real.inj (tested.eq_low found)
    refine .inr ⟨b, high, stops, tested.low_eq, tested.high_eq, ?_⟩
    have narrow := stops.narrow suits tested
    rw [abs_of_pos step_pos] at narrow
    exact narrow

noncomputable def squareRay (direction : ℝ) : Ray Id Extended :=
  .along Square.value Square.gradient #v[real 1] #v[real direction]

theorem squareRay_value (direction a : ℝ) :
    (squareRay direction).value (real a) = pure (real ((1 + a * direction) ^ 2)) := by
  have product (y : Vector Extended 1) : dot y y = real 0 + y.get 0 * y.get 0 := rfl
  simp [squareRay, Square.value, Square.gradient, Ray.along, Ray.ofFunctions, product]
  ring_nf

theorem squareRay_slope (direction a : ℝ) :
    (squareRay direction).slope (real a) = pure (real (2 * (1 + a * direction) * direction)) := by
  have product (y z : Vector Extended 1) : dot y z = real 0 + y.get 0 * z.get 0 := rfl
  simp [squareRay, Square.value, Square.gradient, Ray.along, Ray.ofFunctions, product]
  ring_nf

theorem search_square :
    search (squareRay (-4)) (defaults : Settings ℝ).extend none ((squareRay (-4)).slope 0) =
      .ok (real (1 / 4), 4) := by
  have start_eq : (squareRay (-4)).value 0 = pure (real 1) := by
    rw [zero_def, squareRay_value]
    norm_num
  have slope_eq : (squareRay (-4)).slope 0 = pure (real (-8)) := by
    rw [zero_def, squareRay_slope]
    norm_num
  have falls : real (-8) < 0 := by
    rw [zero_def, real_lt]
    norm_num
  have trial : Scalar.smaller (defaults : Settings ℝ).extend.step
      (defaults : Settings ℝ).extend.longest = real 1 := by
    change Scalar.smaller (real 1.0) (real 1e10) = _
    rw [smaller_real]
    norm_num
  let t : Target Extended := (defaults : Settings ℝ).extend.target (real 1) (real (-8))
  have opened : (extend (squareRay (-4)) t (defaults : Settings ℝ).extend.longest true ⟨0, real 1⟩
      (real 1)).run = .bracketed ⟨real 0, real 1, real 1⟩ := by
    simp [extend, squareRay_value, t, Target.tooHigh, Settings.target, Settings.extend, defaults]
    norm_num
  have narrowed : (refine (squareRay (-4)) t ⟨real 0, real 1, real 1⟩).run =
      .narrowed ⟨real 0, real (1 / 2), real 1⟩ := by
    simp [refine, Bracket.middle, squareRay_value]
    norm_num
  have notCollapsed : Bracket.isCollapsed (⟨real 0, real (1 / 2), real 1⟩ : Bracket Extended) =
      false := by
    simp [Bracket.isCollapsed, leastStep]
    norm_num
  have accepted : (refine (squareRay (-4)) t ⟨real 0, real (1 / 2), real 1⟩).run =
      .accepted (real (1 / 4)) := by
    simp [refine, Bracket.middle, squareRay_value, squareRay_slope, t, Target.tooHigh,
      Target.isFlat, Settings.target, Settings.extend, defaults]
    norm_num
  have zoomed : (zoom (squareRay (-4)) t halvings ⟨real 0, real 1, real 1⟩ (1 + 1)).run =
      (some (real (1 / 4)), 4) := by
    change zoom (squareRay (-4)) t (58 + 1 + 1) ⟨real 0, real 1, real 1⟩ 2 = _
    rw [zoom_succ, narrowed]
    dsimp only
    rw [notCollapsed, if_neg Bool.false_ne_true, zoom_succ, accepted]
  have searched : search (squareRay (-4)) (defaults : Settings ℝ).extend none
      ((squareRay (-4)).slope 0) = lengthen (squareRay (-4)) t (defaults : Settings ℝ).extend
        (39 + 1) true ⟨0, real 1⟩ (real 1) 1 := by
    unfold search
    rw [start_eq, slope_eq]
    simp only [pure_bind]
    rw [if_pos falls, trial]
    rfl
  rw [searched, lengthen_succ, opened]
  dsimp only
  rw [settle_eq, zoomed]

theorem search_returns_wolfe_square :
    search (squareRay (-4)) (defaults : Settings ℝ).extend none ((squareRay (-4)).slope 0) =
      .ok (real (1 / 4), 4) ∧
    ∃ a d v : ℝ, real (1 / 4) = real a ∧ 0 < a ∧ ((squareRay (-4)).slope 0).run = real d ∧ d < 0 ∧
      ((squareRay (-4)).value (real a)).run = real v ∧
      v ≤ 1 + (defaults : Settings ℝ).decrease * a * d := by
  have valid : (defaults : Settings ℝ).check = .ok () := by
    norm_num [Settings.check, defaults]
  have longest_pos : 0 < (defaults : Settings ℝ).longest := by
    norm_num [defaults]
  have start_eq : (none : Option Extended).getD ((squareRay (-4)).value 0).run = real 1 := by
    rw [zero_def, squareRay_value]
    norm_num
  obtain ⟨a, d, v, step_eq, step_pos, _, slope_eq, slope_neg, value_eq, low, _⟩ :=
    search_returns_wolfe valid longest_pos Square.value Square.gradient #v[real 1] #v[real (-4)]
      none ((squareRay (-4)).slope 0) start_eq search_square
  exact ⟨search_square, a, d, v, step_eq, step_pos, slope_eq, slope_neg, value_eq, low⟩

end Search

end Descent.Wolfe
