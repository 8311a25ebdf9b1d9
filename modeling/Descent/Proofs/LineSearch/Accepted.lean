import Descent.Proofs.LineSearch.Bracket
/-!
# Steps that the strong Wolfe search accepts

A search accepts a trial, or the middle of a bracket, because the slope there is flat enough.
Any other step that it returns is the low end of a bracket that it had to stop at.  A search
that neither stops at a bracket nor runs out of trials or of length accepts a step.
-/

namespace Descent.Wolfe

section Accepted

variable {α : Type} [Scalar α] {ray : Ray Id α} {s : Settings α} {start slope : α}

variable (ray s start slope) in
/-- A search accepts a step by one of its two tests of the slope. -/
inductive Accepts : α → Prop
  | trial {trials : Nat} {isFirst : Bool} {previous : Trial α} {step step' : α} :
      Lengthens ray s start slope (trials + 1) isFirst previous step →
      extend ray (s.target start slope) s.longest isFirst previous step = .accepted step' →
      Accepts step'
  | middle {k : Nat} {b : Bracket α} {step : α} :
      Zooms ray s start slope (k + 1) b →
      refine ray (s.target start slope) b = .accepted step → Accepts step

theorem Accepts.search_eq {known : Option α} {slope : Id α} {step : α}
    (accepts : Accepts ray s (known.getD (ray.value 0).run) slope.run step) :
    ∃ evaluations, search ray s known slope = .ok (step, evaluations) := by
  cases accepts with
  | trial lengthens accepted =>
      obtain ⟨evaluations, eq⟩ := lengthens.search_eq
      refine ⟨evaluations + 1, ?_⟩
      rw [eq, lengthen, accepted]
      rfl
  | middle zooms accepted =>
      obtain ⟨evaluations, eq⟩ := zooms.search_eq
      refine ⟨evaluations + 1, ?_⟩
      rw [eq, zoom, accepted]
      rfl

theorem Zooms.slope_neg {k : Nat} {b : Bracket α} (zooms : Zooms ray s start slope k b) :
    slope < 0 := by
  induction zooms with
  | opened lengthens _ => exact lengthens.slope_neg
  | narrowed _ _ _ ih => exact ih

theorem Accepts.slope_neg {step : α} (accepts : Accepts ray s start slope step) : slope < 0 := by
  cases accepts with
  | trial lengthens _ => exact lengthens.slope_neg
  | middle zooms _ => exact zooms.slope_neg

theorem Accepts.meets {φ φ' : α → α} {step : α}
    (accepts : Accepts (.ofFunctions φ φ') s start slope step) :
    (s.target start slope).tooHigh step (φ step) = false ∧
      (s.target start slope).isFlat (φ' step) = true := by
  cases accepts with
  | trial _ accepted =>
      obtain ⟨rfl, low, flat⟩ := extend_eq_accepted accepted
      exact ⟨low, flat⟩
  | middle _ accepted =>
      obtain ⟨rfl, low, flat⟩ := refine_eq_accepted accepted
      exact ⟨low, flat⟩

theorem Accepts.first {φ φ' : α → α} {step : α} (falls : slope < 0)
    (trials_pos : 0 < s.trials.toNat) (step_eq : Scalar.smaller s.step s.longest = step)
    (low : (s.target start slope).tooHigh step (φ step) = false)
    (flat : (s.target start slope).isFlat (φ' step) = true) :
    Accepts (.ofFunctions φ φ') s start slope step := by
  obtain ⟨trials, trials_eq⟩ := Nat.exists_eq_succ_of_ne_zero trials_pos.ne'
  have lengthens : Lengthens (.ofFunctions φ φ') s start slope s.trials.toNat true ⟨0, start⟩
      (Scalar.smaller s.step s.longest) := .first falls
  rw [trials_eq, step_eq] at lengthens
  refine .trial lengthens ?_
  simp only [extend, Ray.ofFunctions, pure_bind, low, flat, Bool.not_true, Bool.false_and,
    Bool.or_self, Bool.false_eq_true, if_false, if_true]
  rfl

section Progress

variable (unstopped : ∀ b, ¬ Stops ray s start slope b)

include unstopped

/-- A zoom phase that does not stop accepts a middle. -/
theorem Zooms.exists_accepts {k : Nat} {b : Bracket α} (zooms : Zooms ray s start slope k b) :
    ∃ step, Accepts ray s start slope step := by
  induction k generalizing b with
  | zero => exact absurd (.exhausted zooms) (unstopped b)
  | succ k ih =>
      cases refined : (refine ray (s.target start slope) b).run with
      | accepted step => exact ⟨step, .middle zooms refined⟩
      | narrowed b' =>
          cases collapsed : b'.isCollapsed with
          | true => exact absurd (.collapsed zooms refined collapsed) (unstopped b')
          | false => exact ih (.narrowed zooms refined collapsed)

theorem Lengthens.exists_accepts
    (unexhausted : ∀ isFirst previous step,
      ¬ Lengthens ray s start slope 0 isFirst previous step)
    (unbounded : ∀ trials isFirst previous step bound,
      Lengthens ray s start slope trials isFirst previous step →
      extend ray (s.target start slope) s.longest isFirst previous step ≠ .bounded bound)
    {trials : Nat} {isFirst : Bool} {previous : Trial α} {step : α}
    (lengthens : Lengthens ray s start slope trials isFirst previous step) :
    ∃ step', Accepts ray s start slope step' := by
  induction trials generalizing isFirst previous step with
  | zero => exact absurd lengthens (unexhausted isFirst previous step)
  | succ trials ih =>
      cases extended :
        (extend ray (s.target start slope) s.longest isFirst previous step).run with
      | accepted step' => exact ⟨step', .trial lengthens extended⟩
      | bracketed b => exact Zooms.exists_accepts unstopped (.opened lengthens extended)
      | bounded bound => exact absurd extended (unbounded _ _ _ _ bound lengthens)
      | lengthened previous' step' => exact ih (.next lengthens extended)

end Progress

end Accepted

section Forward

variable {φ φ' : ℝ → ℝ} {s : Settings ℝ} {start slope : ℝ}

structure Bracket.IsForward (b : Bracket ℝ) : Prop where
  low_nonneg : 0 ≤ b.low
  high_nonneg : 0 ≤ b.high
  nontrivial : 0 < b.low + b.high

theorem Bracket.IsForward.middle_pos {b : Bracket ℝ} (isForward : b.IsForward) : 0 < b.middle := by
  have sum_pos := isForward.nontrivial
  unfold Bracket.middle
  norm_num
  linarith

theorem Lengthens.step_pos (step_pos : 0 < s.step) (longest_pos : 0 < s.longest) {trials : Nat}
    {isFirst : Bool} {previous : Trial ℝ} {step : ℝ}
    (lengthens : Lengthens (.ofFunctions φ φ') s start slope trials isFirst previous step) :
    0 ≤ previous.step ∧ 0 < step := by
  induction lengthens with
  | first _ =>
      refine ⟨le_rfl, ?_⟩
      rw [Scalar.smaller_real]
      exact lt_min step_pos longest_pos
  | next _ lengthened ih =>
      obtain ⟨rfl, rfl, _⟩ := extend_eq_lengthened lengthened
      refine ⟨ih.2.le, ?_⟩
      rw [Scalar.smaller_real]
      exact lt_min (mul_pos (by norm_num) ih.2) longest_pos

theorem Bracket.IsForward.narrowed {t : Target ℝ} {b b' : Bracket ℝ} (isForward : b.IsForward)
    (narrowed : refine (.ofFunctions φ φ') t b = .narrowed b') : b'.IsForward := by
  have middle_pos := isForward.middle_pos
  rcases refine_eq_narrowed narrowed with ⟨rfl, _⟩ | ⟨rfl, _⟩
  · exact ⟨isForward.low_nonneg, middle_pos.le,
      add_pos_of_nonneg_of_pos isForward.low_nonneg middle_pos⟩
  · have high_nonneg : 0 ≤ if 0 ≤ φ' b.middle * (b.high - b.low) then b.low else b.high := by
      split
      · exact isForward.low_nonneg
      · exact isForward.high_nonneg
    exact ⟨middle_pos.le, high_nonneg, add_pos_of_pos_of_nonneg middle_pos high_nonneg⟩

theorem Zooms.isForward (step_pos : 0 < s.step) (longest_pos : 0 < s.longest) {k : Nat}
    {b : Bracket ℝ} (zooms : Zooms (.ofFunctions φ φ') s start slope k b) : b.IsForward := by
  induction zooms with
  | opened lengthens bracketed =>
      obtain ⟨before_nonneg, trial_pos⟩ := lengthens.step_pos step_pos longest_pos
      rcases extend_eq_bracketed bracketed with ⟨rfl, _⟩ | ⟨rfl, _⟩
      · exact ⟨before_nonneg, trial_pos.le, add_pos_of_nonneg_of_pos before_nonneg trial_pos⟩
      · exact ⟨trial_pos.le, before_nonneg, add_pos_of_pos_of_nonneg trial_pos before_nonneg⟩
  | narrowed _ narrowed _ ih => exact ih.narrowed narrowed

theorem Accepts.pos (step_pos : 0 < s.step) (longest_pos : 0 < s.longest) {step : ℝ}
    (accepts : Accepts (.ofFunctions φ φ') s start slope step) : 0 < step := by
  cases accepts with
  | trial lengthens accepted =>
      obtain ⟨rfl, _⟩ := extend_eq_accepted accepted
      exact (lengthens.step_pos step_pos longest_pos).2
  | middle zooms accepted =>
      obtain ⟨rfl, _⟩ := refine_eq_accepted accepted
      exact (zooms.isForward step_pos longest_pos).middle_pos

end Forward

end Descent.Wolfe
