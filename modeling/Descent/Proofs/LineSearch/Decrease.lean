import Descent.Proofs.Extended
import Descent.Proofs.LineSearch.Phases
/-!
# Steps that decrease enough

Whatever the values and slopes along a ray, both searches return only steps that were tried
and found finite and low enough.  In the zoom phase the low end of a bracket is such a step
as soon as it is one at all.
-/

namespace Descent

open Extended

/-- A positive step at which a function is finite and below the line of decrease, which is
itself below the start. -/
structure SufficientDecrease (φ : Extended → Extended) (start decrease slope step : Extended) :
    Prop where
  slope_neg : slope < 0
  step_pos : 0 < step
  finite : Scalar.isFinite (φ step) = true
  le_bound : φ step ≤ start + decrease * step * slope
  bound_lt : start + decrease * step * slope < start

namespace SufficientDecrease

variable {φ : Extended → Extended} {start decrease step : ℝ} {slope : Extended}

/-- A finite value is not above a bound with a falling slope only if the bound is finite. -/
theorem of_not_lt (decrease_pos : 0 < decrease) (slope_neg : slope < 0) (step_pos : 0 < step)
    (finite : Scalar.isFinite (φ (real step)) = true)
    (low : ¬ real start + real decrease * real step * slope < φ (real step)) :
    SufficientDecrease φ (real start) (real decrease) slope (real step) := by
  obtain ⟨v, value⟩ := eq_real_of_isFinite finite
  have scaled : 0 < decrease * step := mul_pos decrease_pos step_pos
  rw [value] at low
  cases slope with
  | real d =>
      have negative : d < 0 := slope_neg
      have lower : v ≤ start + decrease * step * d := not_lt.mp low
      refine ⟨slope_neg, step_pos, finite, ?_, ?_⟩
      · rw [value]
        exact lower
      · simp only [real_mul, real_add, real_lt]
        linarith [mul_neg_of_pos_of_neg scaled negative]
  | negInf =>
      rw [real_mul, real_mul_negInf scaled] at low
      exact absurd trivial low
  | posInf => exact slope_neg.elim
  | nan => exact slope_neg.elim

theorem of_le (decrease_pos : 0 < decrease) (falls : ¬ 0 ≤ slope) (step_pos : 0 < step)
    (finite : Scalar.isFinite (φ (real step)) = true)
    (lower : φ (real step) ≤ real start + real decrease * real step * slope) :
    SufficientDecrease φ (real start) (real decrease) slope (real step) := by
  have isNumber : slope ≠ nan := by
    rintro rfl
    obtain ⟨v, value⟩ := eq_real_of_isFinite finite
    rw [value] at lower
    exact lower.elim
  exact of_not_lt decrease_pos (lt_zero_of_not_le isNumber falls) step_pos finite
    (not_lt_of_le lower)

end SufficientDecrease

namespace Armijo

variable {φ φ' : Extended → Extended} {s : Settings Extended} {start decrease shrink : ℝ}
  {slope : Extended}

theorem Settings.shortened_real (shrink_eq : s.shrink = real shrink) (step : ℝ) (k : Nat) :
    s.shortened (real step) k = real (step * shrink ^ k) := by
  induction k with
  | zero =>
      rw [pow_zero, mul_one]
      rfl
  | succ k ih => rw [Settings.shortened_succ, ih, shrink_eq, real_mul, pow_succ, mul_assoc]

theorem backtrack_decreases (decrease_eq : s.decrease = real decrease)
    (decrease_pos : 0 < decrease) (shrink_eq : s.shrink = real shrink) (shrink_pos : 0 < shrink)
    (falls : ¬ 0 ≤ slope) {trials : Nat} {step : ℝ} (step_pos : 0 < step) {evaluations : Nat}
    {found : Extended × Nat}
    (ok : backtrack (Ray.ofFunctions φ φ').value s (real start) slope trials (real step)
      evaluations = .ok found) :
    SufficientDecrease φ (real start) (real decrease) slope found.1 := by
  obtain ⟨k, _, found_eq, accepted⟩ := exists_of_backtrack ok
  rw [Settings.shortened_real shrink_eq] at found_eq
  rw [found_eq, Settings.acceptsAt_iff, decrease_eq] at accepted
  rw [found_eq]
  exact .of_le decrease_pos falls (mul_pos step_pos (pow_pos shrink_pos k)) accepted.1 accepted.2

theorem search_decreases {first : ℝ} (decrease_eq : s.decrease = real decrease)
    (decrease_pos : 0 < decrease) (step_eq : s.step = real first) (step_pos : 0 < first)
    (shrink_eq : s.shrink = real shrink) (shrink_pos : 0 < shrink) {evaluations : Nat}
    {found : Extended × Nat}
    (ok : search (Ray.ofFunctions φ φ').value s (real start) slope evaluations = .ok found) :
    SufficientDecrease φ (real start) (real decrease) slope found.1 := by
  unfold search at ok
  split_ifs at ok with falls
  · cases ok
  · rw [step_eq] at ok
    exact backtrack_decreases decrease_eq decrease_pos shrink_eq shrink_pos falls step_pos ok

end Armijo

namespace Wolfe

variable {φ φ' : Extended → Extended} {t : Target Extended} {start decrease : ℝ}

structure Target.Falls (t : Target Extended) (start decrease : ℝ) : Prop where
  start_eq : t.start = real start
  decrease_eq : t.decrease = real decrease
  decrease_pos : 0 < decrease
  slope_neg : t.slope < 0

theorem Target.Falls.decreases (falls : t.Falls start decrease) {step : ℝ} (step_pos : 0 < step)
    (notTooHigh : t.tooHigh (real step) (φ (real step)) = false) :
    SufficientDecrease φ t.start t.decrease t.slope (real step) := by
  simp only [Target.tooHigh, Bool.or_eq_false_iff, Bool.not_eq_eq_eq_not, Bool.not_false,
    decide_eq_false_iff_not, falls.start_eq, falls.decrease_eq] at notTooHigh
  rw [falls.start_eq, falls.decrease_eq]
  exact .of_not_lt falls.decrease_pos falls.slope_neg step_pos notTooHigh.1 notTooHigh.2

/-- The ends of a bracket are not negative and not both zero, and the low end has decreased
enough if it is a step at all. -/
structure Bracket.Tested (φ : Extended → Extended) (t : Target Extended) (b : Bracket Extended)
    (low high : ℝ) : Prop where
  low_eq : b.low = real low
  high_eq : b.high = real high
  low_nonneg : 0 ≤ low
  high_nonneg : 0 ≤ high
  nontrivial : 0 < low + high
  decreases : 0 < low → SufficientDecrease φ t.start t.decrease t.slope (real low)

section Zoom

variable {b : Bracket Extended} {low high : ℝ}

theorem Bracket.Tested.middle_eq (tested : b.Tested φ t low high) :
    b.middle = real ((low + high) / 2) := by
  rw [Bracket.middle, tested.low_eq, tested.high_eq, ofScientific_def, real_add, real_mul]
  congr 1
  ring

theorem Bracket.Tested.eq_low (tested : b.Tested φ t low high) {step : Extended}
    (found : b.step? = some step) : step = real low := by
  unfold Bracket.step? at found
  split_ifs at found
  cases found
  exact tested.low_eq

theorem Bracket.Tested.step? (tested : b.Tested φ t low high) {step : Extended}
    (found : b.step? = some step) : SufficientDecrease φ t.start t.decrease t.slope step := by
  rw [tested.eq_low found]
  unfold Bracket.step? at found
  rw [tested.low_eq] at found
  split_ifs at found with positive
  exact tested.decreases positive

/-- A narrowed bracket is half as wide and reaches no further. -/
theorem Bracket.Tested.narrowed (tested : b.Tested φ t low high) (falls : t.Falls start decrease)
    {b' : Bracket Extended} (narrowed : refine (.ofFunctions φ φ') t b = .narrowed b') :
    ∃ low' high', b'.Tested φ t low' high' ∧ max low' high' ≤ max low high ∧
      |high' - low'| = |high - low| / 2 := by
  have middle_pos : 0 < (low + high) / 2 := half_pos tested.nontrivial
  have middle_le : (low + high) / 2 ≤ max low high := by
    linarith [le_max_left low high, le_max_right low high]
  have width : |(low + high) / 2 - low| = |high - low| / 2 := by
    rw [show (low + high) / 2 - low = (high - low) / 2 by ring, abs_div, abs_two]
  have width' : |high - (low + high) / 2| = |high - low| / 2 := by
    rw [show high - (low + high) / 2 = (high - low) / 2 by ring, abs_div, abs_two]
  rcases refine_eq_narrowed narrowed with ⟨rfl, _⟩ | ⟨rfl, notTooHigh, _, _⟩
  · exact ⟨low, (low + high) / 2, ⟨tested.low_eq, tested.middle_eq, tested.low_nonneg,
      middle_pos.le, add_pos_of_nonneg_of_pos tested.low_nonneg middle_pos, tested.decreases⟩,
      max_le (le_max_left _ _) middle_le, width⟩
  · rw [tested.middle_eq] at notTooHigh
    have decreases := falls.decreases middle_pos notTooHigh
    by_cases turned : 0 ≤ φ' b.middle * (b.high - b.low)
    · exact ⟨(low + high) / 2, low, ⟨tested.middle_eq, (if_pos turned).trans tested.low_eq,
        middle_pos.le, tested.low_nonneg, add_pos_of_pos_of_nonneg middle_pos tested.low_nonneg,
        fun _ => decreases⟩, max_le middle_le (le_max_left _ _), (abs_sub_comm low _).trans width⟩
    · exact ⟨(low + high) / 2, high, ⟨tested.middle_eq, (if_neg turned).trans tested.high_eq,
        middle_pos.le, tested.high_nonneg,
        add_pos_of_pos_of_nonneg middle_pos tested.high_nonneg, fun _ => decreases⟩,
        max_le middle_le (le_max_right _ _), width'⟩

end Zoom

section Search

variable {s : Settings Extended} {slope : Extended} {first longest : ℝ}

/-- The trial at a step and the one before it are within the longest step, and the one before has
decreased enough if it is a step at all. -/
structure Approached (φ : Extended → Extended) (t : Target Extended) (longest : ℝ)
    (previous : Trial Extended) (step : Extended) (before next : ℝ) : Prop where
  previous_eq : previous.step = real before
  step_eq : step = real next
  before_mem : before ∈ Set.Icc 0 longest
  next_mem : next ∈ Set.Ioc 0 longest
  decreases : 0 < before → SufficientDecrease φ t.start t.decrease t.slope (real before)

theorem Approached.bracketed {previous : Trial Extended} {step : Extended} {before next : ℝ}
    (approached : Approached φ t longest previous step before next) (falls : t.Falls start decrease)
    {isFirst : Bool} {bound : Extended} {b : Bracket Extended}
    (bracketed : extend (.ofFunctions φ φ') t bound isFirst previous step = .bracketed b) :
    ∃ low high, b.Tested φ t low high ∧ max low high ≤ longest ∧ |high - low| ≤ longest := by
  obtain ⟨previous_eq, rfl, ⟨before_nonneg, before_le⟩, ⟨next_pos, next_le⟩, decreases⟩ :=
    approached
  have width : |next - before| ≤ longest := abs_sub_le_of_nonneg_of_le next_pos.le next_le
    before_nonneg before_le
  rcases extend_eq_bracketed bracketed with ⟨rfl, _⟩ | ⟨rfl, notTooHigh, _⟩
  · exact ⟨before, next, ⟨previous_eq, rfl, before_nonneg, next_pos.le,
      add_pos_of_nonneg_of_pos before_nonneg next_pos, decreases⟩, max_le before_le next_le,
      width⟩
  · exact ⟨next, before, ⟨rfl, previous_eq, next_pos.le, before_nonneg,
      add_pos_of_pos_of_nonneg next_pos before_nonneg,
      fun _ => falls.decreases next_pos notTooHigh⟩, max_le next_le before_le,
      abs_sub_comm next before ▸ width⟩

theorem Approached.lengthened {previous : Trial Extended} {step : Extended} {before next : ℝ}
    (approached : Approached φ t longest previous step before next) (falls : t.Falls start decrease)
    {isFirst : Bool} {previous' : Trial Extended} {step' : Extended}
    (lengthened : extend (.ofFunctions φ φ') t (real longest) isFirst previous step =
      .lengthened previous' step') :
    ∃ before' next', Approached φ t longest previous' step' before' next' := by
  obtain ⟨_, rfl, _, ⟨next_pos, next_le⟩, _⟩ := approached
  obtain ⟨rfl, rfl, notTooHigh, _⟩ := extend_eq_lengthened lengthened
  refine ⟨next, min (2 * next) longest, rfl, ?_, ⟨next_pos.le, next_le⟩,
    ⟨lt_min (by linarith) (next_pos.trans_le next_le), min_le_right _ _⟩,
    fun _ => falls.decreases next_pos notTooHigh⟩
  rw [ofScientific_def, real_mul, smaller_real]
  norm_num

structure Settings.Suits (s : Settings Extended) (decrease first longest : ℝ) : Prop where
  decrease_eq : s.decrease = real decrease
  decrease_pos : 0 < decrease
  step_eq : s.step = real first
  step_pos : 0 < first
  longest_eq : s.longest = real longest
  longest_pos : 0 < longest

theorem Settings.Suits.falls (suits : s.Suits decrease first longest) (slope_neg : slope < 0) :
    (s.target (real start) slope).Falls start decrease :=
  ⟨rfl, suits.decrease_eq, suits.decrease_pos, slope_neg⟩

theorem Lengthens.approached (suits : s.Suits decrease first longest) {trials : Nat}
    {isFirst : Bool} {previous : Trial Extended} {step : Extended}
    (lengthens : Lengthens (.ofFunctions φ φ') s (real start) slope trials isFirst previous step) :
    ∃ before next,
      Approached φ (s.target (real start) slope) longest previous step before next := by
  induction lengthens with
  | first falls =>
      refine ⟨0, min first longest, rfl, ?_, ⟨le_rfl, suits.longest_pos.le⟩,
        ⟨lt_min suits.step_pos suits.longest_pos, min_le_right _ _⟩,
        fun absurd => (lt_irrefl _ absurd).elim⟩
      rw [suits.step_eq, suits.longest_eq, smaller_real]
  | next before lengthened ih =>
      obtain ⟨_, _, approached⟩ := ih
      rw [suits.longest_eq] at lengthened
      exact approached.lengthened (suits.falls before.slope_neg) lengthened

theorem Zooms.tested (suits : s.Suits decrease first longest) {k : Nat} {b : Bracket Extended}
    (zooms : Zooms (.ofFunctions φ φ') s (real start) slope k b) :
    slope < 0 ∧ ∃ low high, b.Tested φ (s.target (real start) slope) low high ∧
      max low high ≤ longest ∧ |high - low| * 2 ^ halvings ≤ longest * 2 ^ k := by
  induction zooms with
  | opened lengthens bracketed =>
      obtain ⟨_, _, approached⟩ := lengthens.approached suits
      obtain ⟨low, high, tested, le_longest, width⟩ :=
        approached.bracketed (suits.falls lengthens.slope_neg) bracketed
      exact ⟨lengthens.slope_neg, low, high, tested, le_longest,
        mul_le_mul_of_nonneg_right width (by positivity)⟩
  | narrowed _ narrowed _ ih =>
      obtain ⟨slope_neg, low, high, tested, le_longest, width⟩ := ih
      obtain ⟨low', high', tested', shorter, halved⟩ :=
        tested.narrowed (suits.falls slope_neg) narrowed
      refine ⟨slope_neg, low', high', tested', shorter.trans le_longest, ?_⟩
      rw [halved]
      rw [pow_succ] at width
      linarith

theorem Stops.tested (suits : s.Suits decrease first longest) {b : Bracket Extended}
    (stops : Stops (.ofFunctions φ φ') s (real start) slope b) :
    ∃ low high, b.Tested φ (s.target (real start) slope) low high ∧ max low high ≤ longest := by
  cases stops with
  | collapsed zooms narrowed _ =>
      obtain ⟨slope_neg, _, _, tested, le_longest, _⟩ := zooms.tested suits
      obtain ⟨low, high, tested', shorter, _⟩ :=
        tested.narrowed (suits.falls slope_neg) narrowed
      exact ⟨low, high, tested', shorter.trans le_longest⟩
  | exhausted zooms =>
      obtain ⟨_, low, high, tested, le_longest, _⟩ := zooms.tested suits
      exact ⟨low, high, tested, le_longest⟩

/-- A search returns a step only if it decreases enough and is not too long. -/
theorem Returns.decreases (suits : s.Suits decrease first longest) {step : Extended}
    (returns : Returns (.ofFunctions φ φ') s (real start) slope step) :
    SufficientDecrease φ (real start) (real decrease) slope step ∧ step ≤ real longest := by
  rw [← suits.decrease_eq]
  cases returns with
  | trial lengthens accepted =>
      obtain ⟨_, next, approached⟩ := lengthens.approached suits
      obtain ⟨rfl, notTooHigh, _⟩ := extend_eq_accepted accepted
      rw [approached.step_eq] at notTooHigh ⊢
      exact ⟨(suits.falls lengthens.slope_neg).decreases approached.next_mem.1 notTooHigh,
        approached.next_mem.2⟩
  | middle zooms accepted =>
      obtain ⟨slope_neg, low, high, tested, le_longest, _⟩ := zooms.tested suits
      obtain ⟨rfl, notTooHigh, _⟩ := refine_eq_accepted accepted
      rw [tested.middle_eq] at notTooHigh ⊢
      refine ⟨(suits.falls slope_neg).decreases (half_pos tested.nontrivial) notTooHigh, ?_⟩
      rw [real_le]
      linarith [(le_max_left low high).trans le_longest, (le_max_right low high).trans le_longest]
  | stopped stops found =>
      obtain ⟨low, high, tested, le_longest⟩ := stops.tested suits
      refine ⟨tested.step? found, ?_⟩
      rw [tested.eq_low found]
      exact (le_max_left low high).trans le_longest

/-- A search whose constants are in range returns only steps that decrease enough. -/
theorem search_decreases (suits : s.Suits decrease first longest) {found : Extended × Nat}
    (ok : search (.ofFunctions φ φ') s (some (real start)) (pure slope) = .ok found) :
    SufficientDecrease φ (real start) (real decrease) slope found.1 :=
  ((returns_of_search ok).2.decreases suits).1

end Search

end Wolfe

end Descent
