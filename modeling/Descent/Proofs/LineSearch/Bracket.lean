import Descent.Proofs.LineSearch.Phases
import Descent.Proofs.Square
/-!
# Brackets of the strong Wolfe search

Every bracket that the search halves has a step strictly inside that meets both strong
Wolfe conditions, for a differentiable function whose slope is the true one.  The invariant
is `Encloses`: the low end has decreased enough but is too steep, the function falls from it
towards the high end, and the high end is too high or above the low one.
-/

namespace Descent.Wolfe

/-! ## The step that a bracket encloses -/

section Enclosed

open Set Filter Topology

theorem exists_stationary {g g' : ℝ → ℝ} (derivative : ∀ u, HasDerivAt g (g' u) u)
    (falls : g' 0 < 0) (ends : g 0 ≤ g 1) : ∃ u ∈ Ioo (0 : ℝ) 1, g' u = 0 ∧ g u ≤ g 0 := by
  obtain ⟨c, inside, below⟩ : ∃ c ∈ Ioo (0 : ℝ) 1, g c < g 0 := by
    have slopes : ∀ᶠ u in 𝓝[>] (0 : ℝ), slope g 0 u < 0 :=
      ((hasDerivAt_iff_tendsto_slope.mp (derivative 0)).eventually_lt_const falls).filter_mono
        (nhdsWithin_mono 0 fun u positive => ne_of_gt positive)
    obtain ⟨c, negative, inside⟩ := (slopes.and (Ioo_mem_nhdsGT one_pos)).exists
    refine ⟨c, inside, ?_⟩
    rw [slope_def_field, sub_zero, div_neg_iff] at negative
    rcases negative with ⟨_, left⟩ | ⟨lower, _⟩
    · exact absurd left inside.1.not_gt
    · linarith
  obtain ⟨u, within, least⟩ := isCompact_Icc.exists_isMinOn ⟨c, Ioo_subset_Icc_self inside⟩
    fun v _ => (derivative v).continuousAt.continuousWithinAt
  have lower : g u < g 0 := (least (Ioo_subset_Icc_self inside)).trans_lt below
  have interior : u ∈ Ioo (0 : ℝ) 1 := by
    refine ⟨within.1.lt_of_ne ?_, within.2.lt_of_ne ?_⟩
    · rintro rfl
      exact lower.false
    · rintro rfl
      exact (lower.trans_le ends).false
  have minimum : IsLocalMin g u := least.isLocalMin (Icc_mem_nhds interior.1 interior.2)
  exact ⟨u, interior, minimum.hasDerivAt_eq_zero (derivative u), lower.le⟩

theorem exists_stationary_uIoo {g g' : ℝ → ℝ} {a b : ℝ}
    (derivative : ∀ c, HasDerivAt g (g' c) c) (falls : g' a * (b - a) < 0) (ends : g a ≤ g b) :
    ∃ c ∈ uIoo a b, g' c = 0 ∧ g c ≤ g a := by
  have distinct : b - a ≠ 0 := right_ne_zero_of_mul falls.ne
  have along : ∀ u, HasDerivAt (fun v => a + v * (b - a)) (b - a) u := fun u => by
    simpa using ((hasDerivAt_id u).mul_const (b - a)).const_add a
  have composed : ∀ u,
      HasDerivAt (fun v => g (a + v * (b - a))) (g' (a + u * (b - a)) * (b - a)) u :=
    fun u => (derivative _).comp u (along u)
  obtain ⟨u, ⟨positive, below⟩, stationary, lower⟩ :=
    exists_stationary composed (by simpa using falls) (by simpa using ends)
  refine ⟨a + u * (b - a), ?_, (mul_eq_zero.mp stationary).resolve_right distinct,
    by simpa using lower⟩
  rcases lt_or_gt_of_ne (sub_ne_zero.mp distinct) with reversed | ordered
  · rw [uIoo_of_gt reversed]
    constructor <;> nlinarith
  · rw [uIoo_of_lt ordered]
    constructor <;> nlinarith

variable {φ φ' : ℝ → ℝ} {t : Target ℝ} {b : Bracket ℝ}

def Target.bound (t : Target ℝ) (step : ℝ) : ℝ := t.start + t.decrease * step * t.slope

@[simp] theorem Target.tooHigh_real (step trial : ℝ) :
    t.tooHigh step trial = decide (t.bound step < trial) := rfl

theorem Target.le_bound {step trial : ℝ} (low : t.tooHigh step trial = false) :
    trial ≤ t.bound step := by
  rw [tooHigh_real, decide_eq_false_iff_not, not_lt] at low
  exact low

@[simp] theorem Target.isFlat_real (slope : ℝ) :
    t.isFlat slope = decide (|slope| ≤ -t.curvature * t.slope) := rfl

theorem Target.hasDerivAt_bound (t : Target ℝ) (a : ℝ) :
    HasDerivAt t.bound (t.decrease * t.slope) a :=
  ((((hasDerivAt_id a).const_mul t.decrease).mul_const t.slope).const_add t.start).congr_deriv
    (by ring)

structure Target.Descends (t : Target ℝ) : Prop where
  slope_neg : t.slope < 0
  decrease_pos : 0 < t.decrease
  decrease_lt : t.decrease < t.curvature
  curvature_lt : t.curvature < 1

theorem Target.Descends.share_neg (descends : t.Descends) : t.decrease * t.slope < 0 :=
  mul_neg_of_pos_of_neg descends.decrease_pos descends.slope_neg

theorem Target.Descends.share_le (descends : t.Descends) :
    -(t.decrease * t.slope) ≤ -t.curvature * t.slope := by
  nlinarith [descends.slope_neg, descends.decrease_lt]

/-- The low end has decreased enough but is too steep, the function falls from it towards
the high end, and that end is too high or no lower than the low one. -/
structure Encloses (φ φ' : ℝ → ℝ) (t : Target ℝ) (b : Bracket ℝ) : Prop where
  lowValue_eq : b.lowValue = φ b.low
  low_le : φ b.low ≤ t.bound b.low
  steep : -t.curvature * t.slope < |φ' b.low|
  falls : φ' b.low * (b.high - b.low) < 0
  high : t.bound b.high < φ b.high ∨ φ b.low ≤ φ b.high

theorem Encloses.relative_falls (encloses : Encloses φ φ' t b) (descends : t.Descends) :
    (φ' b.low - t.decrease * t.slope) * (b.high - b.low) < 0 := by
  have steeper : |t.decrease * t.slope| < |φ' b.low| := by
    rw [abs_of_neg descends.share_neg]
    exact descends.share_le.trans_lt encloses.steep
  rcases mul_neg_iff.mp encloses.falls with ⟨positive, reversed⟩ | ⟨negative, ordered⟩
  · rw [abs_of_pos positive, abs_of_neg descends.share_neg] at steeper
    exact mul_neg_of_pos_of_neg (by linarith [descends.share_neg]) reversed
  · rw [abs_of_neg negative, abs_of_neg descends.share_neg] at steeper
    exact mul_neg_of_neg_of_pos (by linarith) ordered

/-- An enclosed step that meets both conditions is a minimum of the height above the line
of decrease or, in a reversed bracket, of the function itself. -/
theorem Encloses.exists_wolfe (encloses : Encloses φ φ' t b) (descends : t.Descends)
    (derivative : ∀ a, HasDerivAt φ (φ' a) a) :
    ∃ a ∈ uIoo b.low b.high, φ a ≤ t.bound a ∧ |φ' a| ≤ -t.curvature * t.slope := by
  by_cases relative : φ b.low - t.bound b.low ≤ φ b.high - t.bound b.high
  · obtain ⟨a, inside, stationary, lower⟩ := exists_stationary_uIoo
      (fun c => (derivative c).sub (t.hasDerivAt_bound c)) (encloses.relative_falls descends)
      relative
    refine ⟨a, inside, ?_, ?_⟩
    · have lower : φ a - t.bound a ≤ φ b.low - t.bound b.low := lower
      linarith [encloses.low_le]
    · rw [sub_eq_zero.mp stationary, abs_of_neg descends.share_neg]
      exact descends.share_le
  · -- The high end is below the line of decrease and yet not below the low end, so the line
    -- must rise towards it.
    have ends : φ b.low ≤ φ b.high :=
      encloses.high.resolve_left fun tooHigh => relative (by linarith [encloses.low_le])
    have reversed : b.high < b.low := by
      have rises : 0 < t.decrease * t.slope * (b.high - b.low) := by
        unfold Target.bound at relative
        nlinarith
      exact sub_neg.mp (neg_of_mul_pos_right rises descends.share_neg.le)
    obtain ⟨a, inside, stationary, lower⟩ :=
      exists_stationary_uIoo derivative encloses.falls ends
    refine ⟨a, inside, ?_, ?_⟩
    · rw [uIoo_of_gt reversed] at inside
      have line : t.bound b.low ≤ t.bound a := by
        unfold Target.bound
        nlinarith [descends.share_neg, inside.2]
      exact (lower.trans encloses.low_le).trans line
    · rw [stationary, abs_zero]
      linarith [descends.share_le, descends.share_neg]

/-! ## The search keeps to such brackets -/

/-- The low end stays or moves to a lower middle; where the middle rises towards the high
end, the old low end becomes the high one. -/
theorem Encloses.narrowed (encloses : Encloses φ φ' t b) (descends : t.Descends) {b' : Bracket ℝ}
    (narrowed : refine (.ofFunctions φ φ') t b = .narrowed b') : Encloses φ φ' t b' := by
  have toMiddle : b.middle - b.low = (b.high - b.low) / 2 := by
    unfold Bracket.middle
    ring
  have fromMiddle : b.high - b.middle = (b.high - b.low) / 2 := by
    unfold Bracket.middle
    ring
  have falls := encloses.falls
  rcases refine_eq_narrowed narrowed with ⟨rfl, rejected⟩ | ⟨rfl, low_le, lower, steep⟩
  · refine ⟨encloses.lowValue_eq, encloses.low_le, encloses.steep, ?_, ?_⟩
    · simp only [toMiddle]
      linarith
    · simpa [encloses.lowValue_eq] using rejected
  · rw [encloses.lowValue_eq] at lower
    simp only [Target.tooHigh_real, decide_eq_false_iff_not, not_lt, Target.isFlat_real,
      not_le] at low_le lower steep
    have nonzero : φ' b.middle * (b.high - b.low) ≠ 0 := by
      refine mul_ne_zero (fun flat => ?_) (right_ne_zero_of_mul falls.ne)
      rw [flat, abs_zero] at steep
      linarith [descends.share_le, descends.share_neg]
    by_cases rises : 0 ≤ φ' b.middle * (b.high - b.low)
    · rw [if_pos rises]
      refine ⟨rfl, low_le, steep, ?_, .inr lower.le⟩
      have positive := rises.lt_of_ne nonzero.symm
      rw [← neg_sub, toMiddle]
      linarith
    · rw [if_neg rises]
      refine ⟨rfl, low_le, steep, ?_, encloses.high.imp_right lower.le.trans⟩
      rw [fromMiddle]
      linarith

/-- What holds before each trial of the bracketing phase: the step before has decreased
enough but is too steep downwards, and it is shorter. -/
structure Approaches (φ φ' : ℝ → ℝ) (t : Target ℝ) (isFirst : Bool) (previous : Trial ℝ)
    (step : ℝ) : Prop where
  value_eq : previous.value = φ previous.step
  previous_le : φ previous.step ≤ t.bound previous.step
  steep : -t.curvature * t.slope < |φ' previous.step|
  falls : φ' previous.step < 0
  nonneg : 0 ≤ previous.step
  shorter : previous.step < step
  first : isFirst = true → φ previous.step = t.bound previous.step

section Extend

variable {isFirst : Bool} {previous : Trial ℝ} {step longest : ℝ}

theorem Approaches.bracketed (approaches : Approaches φ φ' t isFirst previous step)
    (descends : t.Descends)
    (bracketed : extend (.ofFunctions φ φ') t longest isFirst previous step = .bracketed b) :
    Encloses φ φ' t b := by
  have forward : 0 < step - previous.step := sub_pos.mpr approaches.shorter
  rcases extend_eq_bracketed bracketed with ⟨rfl, rejected⟩ | ⟨rfl, low_le, lower, steep, rises⟩
  · refine ⟨approaches.value_eq, approaches.previous_le, approaches.steep,
      mul_neg_of_neg_of_pos approaches.falls forward, ?_⟩
    rw [approaches.value_eq] at rejected
    exact rejected.imp (by simp) And.right
  · rw [approaches.value_eq] at lower
    simp only [Target.tooHigh_real, decide_eq_false_iff_not, not_lt, Target.isFlat_real,
      not_le] at low_le lower steep
    refine ⟨rfl, low_le, steep, ?_, .inr ?_⟩
    · have positive : 0 < φ' step := by
        refine rises.lt_of_ne fun flat => ?_
        rw [← flat, abs_zero] at steep
        linarith [descends.share_le, descends.share_neg]
      exact mul_neg_of_pos_of_neg positive (by linarith)
    · rcases lower with isFirst | lower
      · -- the first trial is not compared with the start, but its bound is lower
        have line : t.bound step ≤ t.bound previous.step := by
          unfold Target.bound
          nlinarith [descends.share_neg]
        rw [approaches.first isFirst]
        exact low_le.trans line
      · exact lower.le

theorem Approaches.lengthened (approaches : Approaches φ φ' t isFirst previous step)
    {previous' : Trial ℝ} {step' : ℝ}
    (lengthened : extend (.ofFunctions φ φ') t longest isFirst previous step =
      .lengthened previous' step') : Approaches φ φ' t false previous' step' := by
  obtain ⟨rfl, rfl, low_le, steep, falls, bounded⟩ := extend_eq_lengthened lengthened
  have positive : 0 < step := approaches.nonneg.trans_lt approaches.shorter
  refine ⟨rfl, by simpa using low_le, by simpa using steep, by simpa using falls, positive.le, ?_,
    by simp⟩
  rw [Scalar.smaller_real]
  exact lt_min (by norm_num; linarith) (not_le.mp bounded)

end Extend

variable {s : Settings ℝ} {start : ℝ} {slope : ℝ}

theorem Lengthens.approaches (start_eq : start = φ 0) (slope_eq : slope = φ' 0)
    (descends : (s.target start slope).Descends) (step_pos : 0 < s.step)
    (longest_pos : 0 < s.longest) {trials : Nat} {isFirst : Bool} {previous : Trial ℝ} {step : ℝ}
    (lengthens : Lengthens (.ofFunctions φ φ') s start slope trials isFirst previous step) :
    Approaches φ φ' (s.target start slope) isFirst previous step := by
  induction lengthens with
  | first falls =>
      have bound_zero : (s.target start slope).bound 0 = φ 0 := by
        simp [Target.bound, Settings.target, start_eq]
      refine ⟨start_eq, bound_zero.ge, ?_, slope_eq ▸ falls, le_rfl,
        by simp [step_pos, longest_pos], fun _ => bound_zero.symm⟩
      have flatter : -(s.target start slope).curvature * slope < -slope := by
        nlinarith [descends.curvature_lt]
      rw [← slope_eq, abs_of_neg falls]
      exact flatter
  | next _ lengthened ih => exact ih.lengthened lengthened

theorem Zooms.encloses (start_eq : start = φ 0) (slope_eq : slope = φ' 0)
    (descends : (s.target start slope).Descends) (step_pos : 0 < s.step)
    (longest_pos : 0 < s.longest) {k : Nat}
    (zooms : Zooms (.ofFunctions φ φ') s start slope k b) :
    Encloses φ φ' (s.target start slope) b := by
  induction zooms with
  | opened lengthens bracketed =>
      exact (lengthens.approaches start_eq slope_eq descends step_pos longest_pos).bracketed
        descends bracketed
  | narrowed _ narrowed _ ih => exact ih.narrowed descends narrowed

end Enclosed

section Search

variable {n : Nat} {value : Vector ℝ n → ℝ} {gradient : Vector ℝ n → Vector ℝ n}

theorem Settings.descends {s : Settings ℝ} (valid : s.check = .ok ()) (start : ℝ) {slope : ℝ}
    (falls : slope < 0) : (s.target start slope).Descends ∧ 0 < s.step := by
  unfold Settings.check at valid
  split_ifs at valid with constants step
  obtain ⟨decrease_pos, decrease_lt, curvature_lt⟩ := constants
  exact ⟨⟨falls, decrease_pos, decrease_lt, curvature_lt⟩, not_le.mp step⟩

/-- Along a ray the gradient gives the slope. -/
theorem hasDerivAt_along (differentiable : ∀ y, HasGradientAt value (gradient y) y)
    (x direction : Vector ℝ n) (a : ℝ) :
    HasDerivAt (fun step => value (x + step * direction))
      (dot (gradient (x + a * direction)) direction) a := by
  have line : HasDerivAt (fun step : ℝ => x + step * direction) direction a := by
    simpa using ((hasDerivAt_id a).smul_const direction).const_add x
  exact (differentiable _).hasFDerivAt.comp_hasDerivAt a line

/-- Strictly inside every bracket that a search halves lies a step that meets both strong
Wolfe conditions, if the gradient is the true one. -/
theorem exists_strong_wolfe_in_bracket
    (differentiable : ∀ y, HasGradientAt value (gradient y) y) {x direction : Vector ℝ n}
    (falls : dot (gradient x) direction < 0) {s : Settings ℝ} (valid : s.check = .ok ())
    (longest_pos : 0 < s.longest) {known : Option ℝ} (known_eq : ∀ v ∈ known, v = value x)
    {knownGradient : Option (Vector ℝ n)} (knownGradient_eq : ∀ g ∈ knownGradient, g = gradient x)
    {k : Nat} {b : Bracket ℝ}
    (zooms : Zooms (.along value gradient x direction) s
      (known.getD ((Ray.along value gradient x direction).value 0).run)
      (knownGradient.elim ((Ray.along value gradient x direction).slope 0).run (dot · direction))
      (k + 1) b) :
    ∃ a ∈ Set.uIoo b.low b.high,
      value (x + a * direction) ≤ value x + s.decrease * a * dot (gradient x) direction ∧
      |dot (gradient (x + a * direction)) direction| ≤
        -s.curvature * dot (gradient x) direction := by
  have origin : x + (0 : ℝ) * direction = x := by simp
  have start_eq : known.getD ((Ray.along value gradient x direction).value 0).run = value x := by
    cases known with
    | none => exact congrArg value origin
    | some v => exact known_eq v rfl
  have slope_eq : knownGradient.elim ((Ray.along value gradient x direction).slope 0).run
      (dot · direction) = dot (gradient x) direction := by
    cases knownGradient with
    | none => exact congrArg (fun y => dot (gradient y) direction) origin
    | some g => exact congrArg (dot · direction) (knownGradient_eq g rfl)
  rw [start_eq, slope_eq] at zooms
  obtain ⟨descends, step_pos⟩ := s.descends valid (value x) falls
  have encloses : Encloses (fun a => value (x + a * direction))
      (fun a => dot (gradient (x + a * direction)) direction)
      (s.target (value x) (dot (gradient x) direction)) b :=
    zooms.encloses (congrArg value origin).symm
      (congrArg (fun y => dot (gradient y) direction) origin).symm descends step_pos longest_pos
  exact encloses.exists_wolfe descends (hasDerivAt_along differentiable x direction)

theorem hasGradientAt_square (y : Vector ℝ 1) :
    HasGradientAt Square.value (Square.gradient y) y := by
  rw [Square.gradient_eq]
  have derivative := (hasStrictFDerivAt_norm_sq y).hasFDerivAt
  simp only [← real_inner_self_eq_norm_sq] at derivative
  refine derivative.congr_fderiv ?_
  ext direction
  simp

theorem exists_strong_wolfe_in_first_bracket :
    let value : Vector ℝ 1 → ℝ := Square.value
    let gradient : Vector ℝ 1 → Vector ℝ 1 := Square.gradient
    let x : Vector ℝ 1 := #v[1]
    let direction : Vector ℝ 1 := #v[-4]
    Zooms (.along value gradient x direction) defaults 1 (-8) halvings ⟨0, 1, 1⟩ ∧
      ∃ a ∈ Set.uIoo (0 : ℝ) 1,
        value (x + a * direction) ≤
          value x + defaults.decrease * a * dot (gradient x) direction ∧
        |dot (gradient (x + a * direction)) direction| ≤
          -defaults.curvature * dot (gradient x) direction := by
  intro value gradient x direction
  have start_eq : value x = 1 := by norm_num [value, Square.value, x, dot_eq_sum]
  have slope_eq : dot (gradient x) direction = -8 := by
    norm_num [gradient, Square.gradient, x, direction, dot_eq_sum]
  have zooms : Zooms (.along value gradient x direction) defaults 1 (-8) halvings ⟨0, 1, 1⟩ := by
    have trial : Scalar.smaller (defaults (α := ℝ)).step (defaults (α := ℝ)).longest = 1 := by
      norm_num [defaults]
    have overshoots : value (x + (1 : ℝ) * direction) = 9 := by
      norm_num [value, Square.value, x, direction, dot_eq_sum]
    have tooHigh : (defaults.target 1 (-8)).tooHigh 1 (9 : ℝ) = true := by
      norm_num [Target.bound, Settings.target, defaults]
    refine .opened (.first (by norm_num)) ?_
    simp only [trial, extend, Ray.along, Ray.ofFunctions, overshoots, pure_bind, tooHigh,
      Bool.true_or, if_true]
    rfl
  have differentiable : ∀ y, HasGradientAt value (gradient y) y := hasGradientAt_square
  have falls : dot (gradient x) direction < 0 := by
    rw [slope_eq]
    norm_num
  have valid : (defaults (α := ℝ)).check = .ok () := by norm_num [Settings.check, defaults]
  have longest_pos : 0 < (defaults (α := ℝ)).longest := by norm_num [defaults]
  have known : ∀ v ∈ some (1 : ℝ), v = value x := by simpa using start_eq.symm
  have knownGradient : ∀ g ∈ some (gradient x), g = gradient x := by simp
  have inside : Zooms (.along value gradient x direction) defaults 1
      (dot (gradient x) direction) (59 + 1) ⟨0, 1, 1⟩ := by
    rw [slope_eq]
    exact zooms
  exact ⟨zooms, exists_strong_wolfe_in_bracket differentiable falls valid longest_pos known
    knownGradient inside⟩

end Search

end Descent.Wolfe
