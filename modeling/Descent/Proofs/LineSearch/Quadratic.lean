import Descent.Proofs.LineSearch.Accepted
/-!
# Quadratic functions along a ray

Along a ray a convex quadratic function falls to its minimizer and rises beyond.  The steps at
which it has decreased enough reach up to one point, those at which it is flat enough fill a
window around the minimizer, and the window is so wide that neither doubling nor halving leaps
over it.  So the strong Wolfe search accepts a step, as long as the window is not so far away
that doubling takes too long and not so near that halving does.
-/

namespace Descent.Wolfe

/-- A quadratic function of the step, with its slope: it bends upwards, and has its minimum at a
positive step. -/
structure Bowl (φ φ' : ℝ → ℝ) (start bend least : ℝ) : Prop where
  value_eq : ∀ step, φ step = start + bend * (step ^ 2 / 2 - least * step)
  slope_eq : ∀ step, φ' step = bend * (step - least)
  bend_pos : 0 < bend
  least_pos : 0 < least

namespace Bowl

variable {φ φ' : ℝ → ℝ} {start bend least : ℝ} {s : Settings ℝ} {step : ℝ}

theorem slope_neg (bowl : Bowl φ φ' start bend least) : -(bend * least) < 0 :=
  neg_neg_of_pos (mul_pos bowl.bend_pos bowl.least_pos)

/-- A step is too long if it is beyond a fixed multiple of the minimizer. -/
theorem tooHigh_iff (bowl : Bowl φ φ' start bend least) (step_pos : 0 < step) :
    (s.target start (-(bend * least))).tooHigh step (φ step) = true ↔
      2 * (1 - s.decrease) * least < step := by
  have bend_pos := bowl.bend_pos
  have scaled : start + bend * (step ^ 2 / 2 - least * step) -
      (start + s.decrease * step * -(bend * least)) =
        bend * step / 2 * (step - 2 * (1 - s.decrease) * least) := by ring
  have factor_pos : 0 < bend * step / 2 := by positivity
  rw [Target.tooHigh_real, decide_eq_true_eq, bowl.value_eq, ← sub_pos]
  change 0 < start + bend * (step ^ 2 / 2 - least * step) -
      (start + s.decrease * step * -(bend * least)) ↔ _
  rw [scaled, mul_pos_iff_of_pos_left factor_pos, sub_pos]

theorem isFlat_iff (bowl : Bowl φ φ' start bend least) :
    (s.target start (-(bend * least))).isFlat (φ' step) = true ↔
      (1 - s.curvature) * least ≤ step ∧ step ≤ (1 + s.curvature) * least := by
  have bend_pos := bowl.bend_pos
  rw [Target.isFlat_real, decide_eq_true_eq, bowl.slope_eq, abs_mul, abs_of_pos bend_pos]
  change bend * |step - least| ≤ -s.curvature * -(bend * least) ↔ _
  rw [show -s.curvature * -(bend * least) = bend * (s.curvature * least) by ring,
    mul_le_mul_iff_right₀ bend_pos, abs_le]
  constructor
  · rintro ⟨above, below⟩
    constructor <;> linarith
  · rintro ⟨above, below⟩
    constructor <;> linarith

theorem nonneg_slope_iff (bowl : Bowl φ φ' start bend least) : 0 ≤ φ' step ↔ least ≤ step := by
  rw [bowl.slope_eq, mul_nonneg_iff_of_pos_left bowl.bend_pos, sub_nonneg]

section Compare

variable {shorter longer : ℝ}

theorem value_sub (bowl : Bowl φ φ' start bend least) (shorter longer : ℝ) :
    φ longer - φ shorter = bend / 2 * (longer - shorter) * (shorter + longer - 2 * least) := by
  rw [bowl.value_eq, bowl.value_eq]
  ring

theorem value_le_iff (bowl : Bowl φ φ' start bend least) (lt : shorter < longer) :
    φ shorter ≤ φ longer ↔ 2 * least ≤ shorter + longer := by
  have factor_pos : 0 < bend / 2 * (longer - shorter) :=
    mul_pos (half_pos bowl.bend_pos) (sub_pos.mpr lt)
  rw [← sub_nonneg, bowl.value_sub, mul_nonneg_iff_of_pos_left factor_pos, sub_nonneg]

theorem value_lt_iff (bowl : Bowl φ φ' start bend least) (lt : shorter < longer) :
    φ shorter < φ longer ↔ 2 * least < shorter + longer := by
  have factor_pos : 0 < bend / 2 * (longer - shorter) :=
    mul_pos (half_pos bowl.bend_pos) (sub_pos.mpr lt)
  rw [← sub_pos, bowl.value_sub, mul_pos_iff_of_pos_left factor_pos, sub_pos]

end Compare

end Bowl

/-- The settings of a search for a quadratic function of reasonable scale: its window is wide, and
neither too far away nor too near. -/
structure Settings.Scales (s : Settings ℝ) (least : ℝ) : Prop where
  decrease_pos : 0 < s.decrease
  decrease_lt : s.decrease < s.curvature
  curvature_lt : s.curvature < 1
  curvature_ge : 1 / 3 ≤ s.curvature
  step_eq : s.step = 1
  longest_eq : s.longest = 1e10
  trials_ge : 34 ≤ s.trials
  near : (1 / 2) ^ 53 ≤ 2 * (1 - s.decrease) * least
  far : (1 - s.curvature) * least ≤ 2 ^ 33

section Doubling

variable {φ φ' : ℝ → ℝ} {start bend least : ℝ} {s : Settings ℝ}

/-- The trials of the bracketing phase: the first one, and those at powers of two that follow a
step before the window. -/
inductive Doubles (φ : ℝ → ℝ) (s : Settings ℝ) (start least : ℝ) :
    (trials : Nat) → (isFirst : Bool) → (previous : Trial ℝ) → (step : ℝ) → Prop
  | first : Doubles φ s start least s.trials.toNat true ⟨0, start⟩ 1
  | later {trials j : Nat} : trials + (j + 1) = s.trials.toNat →
      2 ^ j < (1 - s.curvature) * least →
      Doubles φ s start least trials false ⟨2 ^ j, φ (2 ^ j)⟩ (2 ^ (j + 1))

theorem Settings.Scales.exponent_lt (scales : s.Scales least) {j : Nat}
    (before : (2 : ℝ) ^ j < (1 - s.curvature) * least) : j < 33 :=
  (pow_lt_pow_iff_right₀ one_lt_two).mp (before.trans_le scales.far)

theorem Bowl.before_window (bowl : Bowl φ φ' start bend least) (scales : s.Scales least) {step : ℝ}
    (steep : (s.target start (-(bend * least))).isFlat (φ' step) = false) (falls : ¬ 0 ≤ φ' step) :
    step < (1 - s.curvature) * least := by
  rw [bowl.nonneg_slope_iff, not_le] at falls
  rw [← Bool.not_eq_true, bowl.isFlat_iff] at steep
  have curvature_ge := scales.curvature_ge
  have behind : least ≤ (1 + s.curvature) * least := by nlinarith [bowl.least_pos]
  by_contra reached
  exact steep ⟨not_lt.mp reached, falls.le.trans behind⟩

theorem Doubles.lengthened (bowl : Bowl φ φ' start bend least) (scales : s.Scales least)
    {trials : Nat} {isFirst : Bool} {previous previous' : Trial ℝ} {step step' : ℝ}
    (doubles : Doubles φ s start least (trials + 1) isFirst previous step)
    (lengthened : extend (.ofFunctions φ φ') (s.target start (-(bend * least))) s.longest isFirst
      previous step = .lengthened previous' step') :
    Doubles φ s start least trials false previous' step' := by
  obtain ⟨rfl, rfl, _, steep, falls, _⟩ := extend_eq_lengthened lengthened
  have before := bowl.before_window scales steep falls
  -- The step is a power of two, and its double is shorter than the longest step.
  obtain ⟨j, rfl, count⟩ : ∃ j, step = 2 ^ j ∧ trials + (j + 1) = s.trials.toNat := by
    generalize counted : trials + 1 = remaining at doubles
    cases doubles with
    | first => exact ⟨0, (pow_zero 2).symm, counted⟩
    | @later _ j count _ => exact ⟨j + 1, rfl, by omega⟩
  have doubled : Scalar.smaller (2.0 * (2 : ℝ) ^ j) s.longest = 2 ^ (j + 1) := by
    have below : (2 : ℝ) ^ (j + 1) ≤ 2 ^ 33 :=
      pow_le_pow_right₀ one_le_two (scales.exponent_lt before)
    have two : (2.0 : ℝ) = 2 := by norm_num
    rw [Scalar.smaller_real, scales.longest_eq, two, ← pow_succ']
    exact min_eq_left (below.trans (by norm_num))
  rw [doubled]
  exact .later count before

theorem Lengthens.doubles (bowl : Bowl φ φ' start bend least) (scales : s.Scales least)
    {trials : Nat} {isFirst : Bool} {previous : Trial ℝ} {step : ℝ}
    (lengthens : Lengthens (.ofFunctions φ φ') s start (-(bend * least)) trials isFirst previous
      step) :
    Doubles φ s start least trials isFirst previous step := by
  induction lengthens with
  | first _ =>
      have trial : Scalar.smaller s.step s.longest = 1 := by
        rw [Scalar.smaller_real, scales.step_eq, scales.longest_eq]
        norm_num
      rw [trial]
      exact .first
  | next _ lengthened ih => exact ih.lengthened bowl scales lengthened

theorem Doubles.trials_pos (scales : s.Scales least) {trials : Nat} {isFirst : Bool}
    {previous : Trial ℝ} {step : ℝ}
    (doubles : Doubles φ s start least trials isFirst previous step) :
    0 < trials := by
  have trials_ge := scales.trials_ge
  cases doubles with
  | first => omega
  | later count before =>
      have exponent_lt := scales.exponent_lt before
      omega

theorem Bowl.unbounded (bowl : Bowl φ φ' start bend least) (scales : s.Scales least)
    {isFirst : Bool} {previous : Trial ℝ} {step bound : ℝ} :
    extend (.ofFunctions φ φ') (s.target start (-(bend * least))) s.longest isFirst previous step ≠
      .bounded bound := by
  intro bounded
  obtain ⟨steep, falls, longest_le⟩ := extend_eq_bounded bounded
  have before := (bowl.before_window scales steep falls).trans_le scales.far
  rw [scales.longest_eq] at longest_le
  norm_num at longest_le before
  linarith

end Doubling

section Halving

variable {φ φ' : ℝ → ℝ} {start bend least : ℝ} {s : Settings ℝ}

/-- The brackets of the zoom phase: one from zero to a power of a half that is too high, or one
from a power of a half behind the window back to zero. -/
inductive Halves (φ : ℝ → ℝ) (s : Settings ℝ) (start least : ℝ) : Nat → Bracket ℝ → Prop
  | raised {k j : Nat} : k + j = halvings → 2 * (1 - s.decrease) * least < (1 / 2) ^ j →
      Halves φ s start least k ⟨0, (1 / 2) ^ j, start⟩
  | turned {k j : Nat} : k + j = halvings → (1 + s.curvature) * least < (1 / 2) ^ j →
      (1 / 2) ^ j ≤ 2 * (1 - s.decrease) * least →
      Halves φ s start least k ⟨(1 / 2) ^ j, 0, φ ((1 / 2) ^ j)⟩

theorem Doubles.bracketed (bowl : Bowl φ φ' start bend least) (scales : s.Scales least)
    {trials : Nat} {isFirst : Bool} {previous : Trial ℝ} {step : ℝ} {b : Bracket ℝ}
    (doubles : Doubles φ s start least trials isFirst previous step)
    (bracketed : extend (.ofFunctions φ φ') (s.target start (-(bend * least))) s.longest isFirst
      previous step = .bracketed b) :
    Halves φ s start least halvings b := by
  have least_pos := bowl.least_pos
  have curvature_ge := scales.curvature_ge
  have decrease_lt := scales.decrease_lt
  cases doubles with
  | first =>
      have one : (1 : ℝ) = (1 / 2) ^ 0 := (pow_zero _).symm
      rcases extend_eq_bracketed bracketed with ⟨rfl, rejected⟩ | ⟨rfl, low, _, steep, rises⟩
      · have tooHigh := rejected.resolve_right (by simp)
        rw [bowl.tooHigh_iff one_pos, one] at tooHigh
        rw [one]
        exact .raised rfl tooHigh
      · rw [← Bool.not_eq_true, bowl.tooHigh_iff one_pos, not_lt] at low
        rw [← Bool.not_eq_true, bowl.isFlat_iff] at steep
        rw [bowl.nonneg_slope_iff] at rises
        have behind : (1 + s.curvature) * least < 1 := by
          by_contra within
          exact steep ⟨by nlinarith, not_lt.mp within⟩
        rw [one] at low behind ⊢
        exact .turned rfl behind low
  | @later _ j _ before =>
      -- From a step before the window its double is not too far behind it.
      have shorter_pos : (0 : ℝ) < 2 ^ j := by positivity
      rw [pow_succ] at bracketed
      exfalso
      rcases extend_eq_bracketed bracketed with ⟨_, tooHigh | ⟨_, risen⟩⟩ | ⟨_, _, _, steep, rises⟩
      · rw [bowl.tooHigh_iff (by positivity)] at tooHigh
        nlinarith
      · rw [bowl.value_le_iff (by linarith)] at risen
        nlinarith
      · rw [← Bool.not_eq_true, bowl.isFlat_iff] at steep
        rw [bowl.nonneg_slope_iff] at rises
        exact steep ⟨by nlinarith, by nlinarith⟩

theorem middle_from_zero (h value : ℝ) : Bracket.middle ⟨0, 2 * h, value⟩ = h := by
  unfold Bracket.middle
  norm_num
  ring

theorem middle_to_zero (h value : ℝ) : Bracket.middle ⟨2 * h, 0, value⟩ = h := by
  unfold Bracket.middle
  norm_num
  ring

/-- If its high end is too high, a bracket from zero stays one or is turned round. -/
theorem Bowl.narrowed_from_zero (bowl : Bowl φ φ' start bend least) (scales : s.Scales least)
    {h : ℝ} (h_pos : 0 < h) (tooHigh : 2 * (1 - s.decrease) * least < 2 * h) {b : Bracket ℝ}
    (narrowed : refine (.ofFunctions φ φ') (s.target start (-(bend * least))) ⟨0, 2 * h, start⟩ =
      .narrowed b) :
    (b = ⟨0, h, start⟩ ∧ 2 * (1 - s.decrease) * least < h) ∨
      b = ⟨h, 0, φ h⟩ ∧ (1 + s.curvature) * least < h ∧ h ≤ 2 * (1 - s.decrease) * least := by
  have least_pos := bowl.least_pos
  have decrease_lt := scales.decrease_lt
  have zero_eq : φ 0 = start := by simp [bowl.value_eq]
  have narrowed := refine_eq_narrowed narrowed
  rw [middle_from_zero] at narrowed
  rcases narrowed with ⟨rfl, rejected⟩ | ⟨rfl, low, _, steep⟩
  · refine .inl ⟨rfl, ?_⟩
    rcases rejected with higher | risen
    · exact (bowl.tooHigh_iff h_pos).mp higher
    · change start ≤ φ h at risen
      rw [← zero_eq, bowl.value_le_iff h_pos] at risen
      have decrease_pos := scales.decrease_pos
      nlinarith
  · rw [← Bool.not_eq_true, bowl.tooHigh_iff h_pos, not_lt] at low
    rw [← Bool.not_eq_true, bowl.isFlat_iff] at steep
    have behind : (1 + s.curvature) * least < h := by
      by_contra within
      exact steep ⟨by nlinarith, not_lt.mp within⟩
    have curvature_ge := scales.curvature_ge
    have rises : 0 ≤ φ' h * (2 * h - 0) := by
      refine mul_nonneg (bowl.nonneg_slope_iff.mpr ?_) (by linarith)
      nlinarith
    dsimp only
    rw [if_pos rises]
    exact .inr ⟨rfl, behind, low⟩

/-- A bracket that was turned round accepts its middle. -/
theorem Bowl.not_narrowed_to_zero (bowl : Bowl φ φ' start bend least) (scales : s.Scales least)
    {h : ℝ} (h_pos : 0 < h) (behind : (1 + s.curvature) * least < 2 * h)
    (low : 2 * h ≤ 2 * (1 - s.decrease) * least) {b : Bracket ℝ} :
    refine (.ofFunctions φ φ') (s.target start (-(bend * least))) ⟨2 * h, 0, φ (2 * h)⟩ ≠
      .narrowed b := by
  intro narrowed
  have least_pos := bowl.least_pos
  have curvature_ge := scales.curvature_ge
  have decrease_pos := scales.decrease_pos
  have narrowed := refine_eq_narrowed narrowed
  rw [middle_to_zero] at narrowed
  rcases narrowed with ⟨_, higher | risen⟩ | ⟨_, _, _, steep⟩
  · rw [bowl.tooHigh_iff h_pos] at higher
    linarith
  · have beyond : 2 * least < h + 2 * h := by nlinarith
    exact not_lt.mpr risen ((bowl.value_lt_iff (by linarith)).mpr beyond)
  · rw [← Bool.not_eq_true, bowl.isFlat_iff] at steep
    exact steep ⟨by nlinarith, by nlinarith⟩

theorem Halves.narrowed (bowl : Bowl φ φ' start bend least) (scales : s.Scales least) {k : Nat}
    {b b' : Bracket ℝ} (halves : Halves φ s start least (k + 1) b)
    (narrowed : refine (.ofFunctions φ φ') (s.target start (-(bend * least))) b = .narrowed b') :
    Halves φ s start least k b' := by
  have doubled (j : Nat) : (1 / 2 : ℝ) ^ j = 2 * (1 / 2) ^ (j + 1) := by ring
  have half_pos (j : Nat) : (0 : ℝ) < (1 / 2) ^ j := by positivity
  generalize counted : k + 1 = remaining at halves
  cases halves with
  | @raised j count tooHigh =>
      rw [doubled] at tooHigh narrowed
      rcases bowl.narrowed_from_zero scales (half_pos _) tooHigh narrowed with
        ⟨rfl, higher⟩ | ⟨rfl, behind, low⟩
      · exact .raised (by omega) higher
      · exact .turned (by omega) behind low
  | @turned j count behind low =>
      -- The middle of such a bracket is accepted.
      rw [doubled] at behind low narrowed
      exact absurd narrowed (bowl.not_narrowed_to_zero scales (half_pos _) behind low)

theorem Zooms.halves (bowl : Bowl φ φ' start bend least) (scales : s.Scales least) {k : Nat}
    {b : Bracket ℝ} (zooms : Zooms (.ofFunctions φ φ') s start (-(bend * least)) k b) :
    Halves φ s start least k b := by
  induction zooms with
  | opened lengthens bracketed =>
      exact (lengthens.doubles bowl scales).bracketed bowl scales bracketed
  | narrowed _ narrowed _ ih => exact ih.narrowed bowl scales narrowed

theorem Halves.wide (bowl : Bowl φ φ' start bend least) (scales : s.Scales least) {k : Nat}
    {b : Bracket ℝ} (halves : Halves φ s start least k b) :
    0 < k ∧ b.isCollapsed = false := by
  have exponent_lt {i j : Nat} (wider : (1 / 2 : ℝ) ^ i < (1 / 2) ^ j) : j < i :=
    (pow_lt_pow_iff_right_of_lt_one₀ (by norm_num) (by norm_num)).mp wider
  have near := scales.near
  have count_eq : halvings = 60 := rfl
  -- All brackets have one end at zero and the other at a power of a half.
  have wide {j : Nat} (few : j ≤ 53) {low high : ℝ} (low_le : |low| ≤ 1)
      (width : |high - low| = (1 / 2) ^ j) (value : ℝ) :
      Bracket.isCollapsed ⟨low, high, value⟩ = false := by
    have least_width : (1 / 2 : ℝ) ^ 53 ≤ (1 / 2) ^ j :=
      pow_le_pow_of_le_one (by norm_num) (by norm_num) few
    refine decide_eq_false ?_
    rw [Scalar.abs_real, Scalar.abs_real, Scalar.larger_real, width, max_eq_left low_le, not_le]
    refine lt_of_lt_of_le ?_ least_width
    norm_num [leastStep]
  cases halves with
  | @raised j count higher =>
      have few : j < 53 := exponent_lt (near.trans_lt higher)
      refine ⟨by omega, wide few.le (by simp) ?_ _⟩
      rw [sub_zero, abs_of_pos (by positivity)]
  | @turned j count behind low =>
      have few : j < 54 := by
        have curvature_ge := scales.curvature_ge
        have shorter := mul_pos scales.decrease_pos bowl.least_pos
        have longer : 0 ≤ s.curvature * least := mul_nonneg (by linarith) bowl.least_pos.le
        refine exponent_lt (lt_of_le_of_lt ?_ behind)
        calc (1 / 2 : ℝ) ^ 54
            = (1 / 2) ^ 53 / 2 := by ring
          _ ≤ (1 - s.decrease) * least := by linarith
          _ ≤ (1 + s.curvature) * least := by linarith
      have low_le : |(1 / 2 : ℝ) ^ j| ≤ 1 := by
        rw [abs_of_pos (by positivity)]
        exact pow_le_one₀ (by norm_num) (by norm_num)
      refine ⟨by omega, wide (Nat.le_of_lt_succ few) low_le ?_ _⟩
      rw [zero_sub, abs_neg, abs_of_pos (by positivity)]

theorem Bowl.unstopped (bowl : Bowl φ φ' start bend least) (scales : s.Scales least)
    (b : Bracket ℝ) : ¬ Stops (.ofFunctions φ φ') s start (-(bend * least)) b := by
  intro stops
  cases stops with
  | collapsed zooms narrowed collapsed =>
      have wide := ((zooms.halves bowl scales).narrowed bowl scales narrowed).wide bowl scales
      rw [collapsed] at wide
      exact Bool.false_ne_true wide.2.symm
  | exhausted zooms =>
      exact lt_irrefl 0 ((zooms.halves bowl scales).wide bowl scales).1

theorem Bowl.exists_accepts (bowl : Bowl φ φ' start bend least) (scales : s.Scales least) :
    ∃ step, Accepts (.ofFunctions φ φ') s start (-(bend * least)) step := by
  refine Lengthens.exists_accepts (bowl.unstopped scales) ?_ ?_ (.first bowl.slope_neg)
  · intro isFirst previous step lengthens
    exact lt_irrefl 0 ((lengthens.doubles bowl scales).trials_pos scales)
  · intro trials isFirst previous step bound _
    exact bowl.unbounded scales

end Halving

section Search

variable {n : Nat} {value : Vector ℝ n → ℝ} {gradient : Vector ℝ n → Vector ℝ n}

/-- Along a ray on which a function is quadratic and bends upwards, with the slopes that its
gradient tells, the search returns a step that meets both strong Wolfe conditions, and never
stops at a bracket.  The minimizer must not be so near that its steps are too short to be tried,
nor so far away that doubling does not come to it. -/
theorem search_accepts_on_quadratic {x direction : Vector ℝ n} {start slope bend : ℝ}
    (value_eq : ∀ t : ℝ, value (x + t * direction) = start + slope * t + bend / 2 * t ^ 2)
    (slope_eq : ∀ t : ℝ, dot (gradient (x + t * direction)) direction = slope + bend * t)
    (falls : slope < 0) (bends : 0 < bend) {s : Settings ℝ} (valid : s.check = .ok ())
    (curvature_ge : 1 / 3 ≤ s.curvature) (step_eq : s.step = 1) (longest_eq : s.longest = 1e10)
    (trials_ge : 34 ≤ s.trials) (near : (2 ^ 53)⁻¹ ≤ 2 * (1 - s.decrease) * (-slope / bend))
    (far : (1 - s.curvature) * (-slope / bend) ≤ 2 ^ 33)
    {known : Option ℝ} (known_eq : ∀ v ∈ known, v = value x)
    {knownGradient : Option (Vector ℝ n)} (knownGradient_eq : ∀ g ∈ knownGradient, g = gradient x) :
    let ray := Ray.along value gradient x direction
    ∃ a evaluations,
      search ray s known (knownGradient.elim (ray.slope 0) fun g => pure (dot g direction)) =
        .ok (a, evaluations) ∧
      0 < a ∧ value (x + a * direction) ≤ value x + s.decrease * a * slope ∧
      |dot (gradient (x + a * direction)) direction| ≤ -s.curvature * slope ∧
      Accepts ray s start slope a ∧ ∀ b, ¬ Stops ray s start slope b := by
  intro ray
  have origin : x + (0 : ℝ) * direction = x := by simp
  have start_eq : value x = start := by simpa [origin] using value_eq 0
  have known_start : known.getD (ray.value 0).run = start := by
    cases known with
    | none => exact (congrArg value origin).trans start_eq
    | some v => exact (known_eq v rfl).trans start_eq
  have known_slope : (knownGradient.elim (ray.slope 0) fun g => pure (dot g direction)).run =
      slope := by
    have slope_zero : dot (gradient x) direction = slope := by simpa [origin] using slope_eq 0
    cases knownGradient with
    | none => exact (congrArg (fun y => dot (gradient y) direction) origin).trans slope_zero
    | some g => exact (congrArg (dot · direction) (knownGradient_eq g rfl)).trans slope_zero
  have reaches : bend * (-slope / bend) = -slope := mul_div_cancel₀ _ bends.ne'
  have bowl : Bowl (fun t => value (x + t * direction))
      (fun t => dot (gradient (x + t * direction)) direction) start bend (-slope / bend) := by
    refine ⟨fun t => ?_, fun t => ?_, bends, div_pos (neg_pos.mpr falls) bends⟩
    · rw [value_eq, mul_sub, ← mul_assoc, reaches]
      ring
    · rw [slope_eq, mul_sub, reaches]
      ring
  obtain ⟨descends, step_pos⟩ := s.descends valid start falls
  have scales : s.Scales (-slope / bend) := by
    refine ⟨descends.decrease_pos, descends.decrease_lt, descends.curvature_lt, curvature_ge,
      step_eq, longest_eq, trials_ge, ?_, far⟩
    rw [one_div, inv_pow]
    exact near
  have target_eq : -(bend * (-slope / bend)) = slope := by rw [reaches, neg_neg]
  obtain ⟨a, accepts⟩ := bowl.exists_accepts scales
  have unstopped := bowl.unstopped scales
  rw [target_eq] at accepts unstopped
  obtain ⟨low, flat⟩ := accepts.meets
  have longest_pos : 0 < s.longest := by
    rw [longest_eq]
    norm_num
  obtain ⟨evaluations, found⟩ :
      ∃ evaluations, search ray s known
        (knownGradient.elim (ray.slope 0) fun g => pure (dot g direction)) =
          .ok (a, evaluations) := by
    refine Accepts.search_eq ?_
    rw [known_start, known_slope]
    exact accepts
  refine ⟨a, evaluations, found, accepts.pos step_pos longest_pos, ?_, ?_, accepts, unstopped⟩
  · rw [Target.tooHigh_real, decide_eq_false_iff_not, not_lt] at low
    rw [start_eq]
    exact low
  · rw [Target.isFlat_real, decide_eq_true_eq] at flat
    exact flat

theorem search_accepts_on_square :
    let ray := Ray.along Square.value Square.gradient #v[(1 : ℝ)] #v[-4]
    ∃ a evaluations, search ray defaults none (ray.slope 0) = .ok (a, evaluations) ∧
      0 < a ∧ Accepts ray defaults 1 (-8) a ∧ ∀ b, ¬ Stops ray defaults 1 (-8) b := by
  intro ray
  have value_eq (t : ℝ) : Square.value (#v[1] + t * #v[(-4 : ℝ)]) =
      1 + -8 * t + 32 / 2 * t ^ 2 := by
    simp [Square.value, dot_eq_sum]
    ring
  have slope_eq (t : ℝ) : dot (Square.gradient (#v[1] + t * #v[(-4 : ℝ)])) #v[(-4 : ℝ)] =
      -8 + 32 * t := by
    simp [Square.gradient, dot_eq_sum]
    ring
  have valid : (defaults (α := ℝ)).check = .ok () := by norm_num [Settings.check, defaults]
  have unknown : ∀ v ∈ (none : Option ℝ), v = Square.value #v[1] := by simp
  have unknownGradient : ∀ g ∈ (none : Option (Vector ℝ 1)), g = Square.gradient #v[1] := by
    simp
  obtain ⟨a, evaluations, found, positive, _, _, accepts, unstopped⟩ :=
    search_accepts_on_quadratic value_eq slope_eq (by norm_num) (by norm_num) valid
      (by norm_num [defaults]) (by norm_num [defaults]) rfl (by norm_num [defaults])
      (by norm_num [defaults]) (by norm_num [defaults]) unknown unknownGradient
  exact ⟨a, evaluations, found, positive, accepts, unstopped⟩

end Search

end Descent.Wolfe
