import Descent.Proofs.LineSearch.Ray
/-!
# Phases of the line searches

The trials and brackets that a strong Wolfe search comes to, how it arrives at the step that it
returns, and why a search fails.
-/

namespace Descent.Wolfe

section Reached

variable {α : Type} [Scalar α] (ray : Ray Id α) (s : Settings α) (start slope : α)

def Settings.target (s : Settings α) (start slope : α) : Target α :=
  ⟨start, slope, s.decrease, s.curvature⟩

/-- The bracketing phase of a search comes to a trial, with so many trials left, this one
included. -/
inductive Lengthens : (trials : Nat) → (isFirst : Bool) → (previous : Trial α) → (step : α) → Prop
  | first : slope < 0 →
      Lengthens s.trials.toNat true ⟨0, start⟩ (Scalar.smaller s.step s.longest)
  | next {trials : Nat} {isFirst : Bool} {previous previous' : Trial α} {step step' : α} :
      Lengthens (trials + 1) isFirst previous step →
      extend ray (s.target start slope) s.longest isFirst previous step =
        .lengthened previous' step' →
      Lengthens trials false previous' step'

/-- The zoom phase of a search comes to a bracket, with so many halvings left, this one
included. -/
inductive Zooms : (halvings : Nat) → Bracket α → Prop
  | opened {trials : Nat} {isFirst : Bool} {previous : Trial α} {step : α} {b : Bracket α} :
      Lengthens ray s start slope (trials + 1) isFirst previous step →
      extend ray (s.target start slope) s.longest isFirst previous step = .bracketed b →
      Zooms halvings b
  | narrowed {k : Nat} {b b' : Bracket α} :
      Zooms (k + 1) b → refine ray (s.target start slope) b = .narrowed b' →
      b'.isCollapsed = false → Zooms k b'

/-- A search starts with its first trial if the slope falls; its start is evaluated unless it is
known. -/
theorem search_eq (known : Option α) (slope : Id α) :
    ∃ evaluations, search ray s known slope =
      if slope.run < 0 then
        lengthen ray (s.target (known.getD (ray.value 0).run) slope.run) s s.trials.toNat true
          ⟨0, known.getD (ray.value 0).run⟩ (Scalar.smaller s.step s.longest) evaluations
      else .fail .notDescent 0 evaluations := by
  cases known with
  | none => exact ⟨1, rfl⟩
  | some start => exact ⟨0, rfl⟩

variable {ray s start slope}

theorem Lengthens.search_eq {known : Option α} {slope : Id α} {trials : Nat} {isFirst : Bool}
    {previous : Trial α} {step : α}
    (lengthens : Lengthens ray s (known.getD (ray.value 0).run) slope.run trials isFirst
      previous step) :
    ∃ evaluations, search ray s known slope =
      lengthen ray (s.target (known.getD (ray.value 0).run) slope.run) s trials isFirst previous
        step evaluations := by
  induction lengthens with
  | first falls =>
      obtain ⟨evaluations, eq⟩ := Wolfe.search_eq ray s known slope
      exact ⟨evaluations, eq.trans (if_pos falls)⟩
  | next _ lengthened ih =>
      obtain ⟨evaluations, ih⟩ := ih
      refine ⟨evaluations + 1, ?_⟩
      rw [ih, lengthen, lengthened]
      rfl

theorem Lengthens.slope_neg {trials : Nat} {isFirst : Bool} {previous : Trial α} {step : α}
    (lengthens : Lengthens ray s start slope trials isFirst previous step) : slope < 0 := by
  induction lengthens with
  | first falls => exact falls
  | next _ _ ih => exact ih

theorem Zooms.search_eq {known : Option α} {slope : Id α} {k : Nat} {b : Bracket α}
    (zooms : Zooms ray s (known.getD (ray.value 0).run) slope.run k b) :
    ∃ evaluations, search ray s known slope = (do
      match ← zoom ray (s.target (known.getD (ray.value 0).run) slope.run) k b evaluations with
      | (some step, evaluations) => pure (.ok (step, evaluations))
      | (none, evaluations) => pure (.fail .underflow 0 evaluations)) := by
  induction zooms with
  | opened lengthens bracketed =>
      obtain ⟨evaluations, eq⟩ := lengthens.search_eq
      refine ⟨evaluations + 1, ?_⟩
      rw [eq, lengthen, bracketed]
      rfl
  | narrowed _ narrowed notCollapsed ih =>
      obtain ⟨evaluations, ih⟩ := ih
      refine ⟨evaluations + 1, ?_⟩
      rw [ih, zoom, narrowed]
      simp only [bind, notCollapsed, Bool.false_eq_true, if_false]

section Returned

variable (ray s start slope)

/-- The zoom phase of a search stops at a bracket: it has collapsed, or no halvings are left. -/
inductive Stops : Bracket α → Prop
  | collapsed {k : Nat} {b b' : Bracket α} :
      Zooms ray s start slope (k + 1) b → refine ray (s.target start slope) b = .narrowed b' →
      b'.isCollapsed = true → Stops b'
  | exhausted {b : Bracket α} : Zooms ray s start slope 0 b → Stops b

/-- How a search arrives at the step that it returns: a trial or the middle of a bracket is
accepted, or it stops at a bracket whose low end is a step. -/
inductive Returns : α → Prop
  | trial {trials : Nat} {isFirst : Bool} {previous : Trial α} {step step' : α} :
      Lengthens ray s start slope (trials + 1) isFirst previous step →
      extend ray (s.target start slope) s.longest isFirst previous step = .accepted step' →
      Returns step'
  | middle {k : Nat} {b : Bracket α} {step : α} :
      Zooms ray s start slope (k + 1) b →
      refine ray (s.target start slope) b = .accepted step → Returns step
  | stopped {b : Bracket α} {step : α} :
      Stops ray s start slope b → b.step? = some step → Returns step

end Returned

theorem Zooms.returns {k : Nat} {b : Bracket α} (zooms : Zooms ray s start slope k b)
    {evaluations evaluations' : Nat} {step : α}
    (found : zoom ray (s.target start slope) k b evaluations = (some step, evaluations')) :
    Returns ray s start slope step := by
  induction k generalizing b evaluations with
  | zero => exact .stopped (.exhausted zooms) (congrArg Prod.fst found)
  | succ k ih =>
      rw [zoom_succ] at found
      cases refined : (refine ray (s.target start slope) b).run with
      | accepted middle =>
          rw [refined] at found
          cases found
          exact .middle zooms refined
      | narrowed b' =>
          rw [refined] at found
          cases collapsed : b'.isCollapsed with
          | true =>
              simp only [collapsed, if_true] at found
              exact .stopped (.collapsed zooms refined collapsed) (congrArg Prod.fst found)
          | false =>
              simp only [collapsed, Bool.false_eq_true, if_false] at found
              exact ih (.narrowed zooms refined collapsed) found

theorem Lengthens.returns {trials : Nat} {isFirst : Bool} {previous : Trial α} {step : α}
    (lengthens : Lengthens ray s start slope trials isFirst previous step) {evaluations : Nat}
    {found : α × Nat}
    (ok : lengthen ray (s.target start slope) s trials isFirst previous step evaluations =
      .ok found) : Returns ray s start slope found.1 := by
  induction trials generalizing isFirst previous step evaluations with
  | zero => cases ok
  | succ trials ih =>
      rw [lengthen_succ] at ok
      cases extended :
        (extend ray (s.target start slope) s.longest isFirst previous step).run with
      | accepted step' =>
          rw [extended] at ok
          cases ok
          exact .trial lengthens extended
      | bracketed b =>
          rw [extended] at ok
          dsimp only at ok
          rw [settle_eq] at ok
          rcases zoomed : (zoom ray (s.target start slope) halvings b (evaluations + 1)).run with
            ⟨_ | step', evaluations'⟩
          · rw [zoomed] at ok
            cases ok
          · rw [zoomed] at ok
            cases ok
            exact (Zooms.opened lengthens extended).returns zoomed
      | bounded step' =>
          rw [extended] at ok
          cases ok
      | lengthened previous' step' =>
          rw [extended] at ok
          exact ih (.next lengthens extended) ok

/-- A search that has an answer arrived at it in one of these ways, from a slope that falls. -/
theorem returns_of_search {known : Option α} {slope : Id α} {found : α × Nat}
    (ok : search ray s known slope = .ok found) :
    slope.run < 0 ∧ Returns ray s (known.getD (ray.value 0).run) slope.run found.1 := by
  obtain ⟨evaluations, eq⟩ := search_eq ray s known slope
  rw [eq] at ok
  split_ifs at ok with falls
  · exact ⟨falls, (Lengthens.first falls).returns ok⟩
  · cases ok

theorem lengthen_fault {t : Target α} {trials : Nat} {isFirst : Bool} {previous : Trial α}
    {step : α} {evaluations : Nat} {failure : SearchFailure α}
    (failed : lengthen ray t s trials isFirst previous step evaluations = .error failure) :
    failure.fault ≠ .notDescent := by
  induction trials generalizing isFirst previous step evaluations with
  | zero =>
      cases failed
      simp
  | succ trials ih =>
      rw [lengthen_succ] at failed
      cases extended : (extend ray t s.longest isFirst previous step).run with
      | accepted step' =>
          rw [extended] at failed
          cases failed
      | bracketed b =>
          rw [extended] at failed
          dsimp only at failed
          rw [settle_eq] at failed
          rcases zoomed : (zoom ray t halvings b (evaluations + 1)).run with
            ⟨_ | step', evaluations'⟩
          · rw [zoomed] at failed
            cases failed
            simp
          · rw [zoomed] at failed
            cases failed
      | bounded step' =>
          rw [extended] at failed
          cases failed
          simp
      | lengthened previous' step' =>
          rw [extended] at failed
          exact ih failed

theorem search_fault {known : Option α} {slope : Id α} (falls : slope.run < 0)
    {failure : SearchFailure α} (failed : search ray s known slope = .error failure) :
    failure.fault ≠ .notDescent := by
  obtain ⟨evaluations, eq⟩ := search_eq ray s known slope
  rw [eq, if_pos falls] at failed
  exact lengthen_fault failed

end Reached

end Descent.Wolfe

namespace Descent.Armijo

variable {α : Type} [Scalar α] {value : α → Id α} {s : Settings α} {start slope step : α}

def Settings.shortened (s : Settings α) (step : α) (k : Nat) : α := (· * s.shrink)^[k] step

theorem Settings.shortened_succ (s : Settings α) (step : α) (k : Nat) :
    s.shortened step (k + 1) = s.shortened step k * s.shrink :=
  Function.iterate_succ_apply' _ _ _

theorem Settings.shortened_eq (s : Settings ℝ) (step : ℝ) (k : Nat) :
    s.shortened step k = step * s.shrink ^ k :=
  congrFun (mul_right_iterate s.shrink k) step

def Settings.acceptsAt (s : Settings α) (value : α → Id α) (start slope step : α) : Bool :=
  accepts s.decrease start slope step (value step).run

theorem Settings.acceptsAt_iff : s.acceptsAt value start slope step = true ↔
    Scalar.isFinite (value step).run = true ∧
      (value step).run ≤ start + s.decrease * step * slope := by
  rw [acceptsAt, accepts, Bool.and_eq_true, decide_eq_true_eq]

theorem backtrack_succ (trials : Nat) (step : α) (evaluations : Nat) :
    backtrack value s start slope (trials + 1) step evaluations =
      if s.acceptsAt value start slope step then .ok (step, evaluations + 1)
      else if step * s.shrink < leastStep then
        .fail .noDecrease (step * s.shrink) (evaluations + 1)
      else backtrack value s start slope trials (step * s.shrink) (evaluations + 1) := rfl

/-- Trials that are not accepted and do not become too short only use up the budget. -/
theorem backtrack_add {k : Nat}
    (rejected : ∀ i < k, ¬ s.acceptsAt value start slope (s.shortened step i))
    (long : ∀ i < k, ¬ s.shortened step (i + 1) < leastStep) (trials evaluations : Nat) :
    backtrack value s start slope (trials + k) step evaluations =
      backtrack value s start slope trials (s.shortened step k) (evaluations + k) := by
  induction k generalizing trials with
  | zero => rfl
  | succ k ih =>
      have last := long k (Nat.lt_succ_self k)
      rw [Settings.shortened_succ] at last ⊢
      rw [show trials + (k + 1) = trials + 1 + k by omega,
        ih (fun i less => rejected i (less.trans (Nat.lt_succ_self k)))
          (fun i less => long i (less.trans (Nat.lt_succ_self k))),
        backtrack_succ, if_neg (rejected k (Nat.lt_succ_self k)), if_neg last]
      rfl

theorem backtrack_of_accepts {k trials : Nat}
    (rejected : ∀ i < k, ¬ s.acceptsAt value start slope (s.shortened step i))
    (long : ∀ i < k, ¬ s.shortened step (i + 1) < leastStep) (enough : k < trials)
    (accepted : s.acceptsAt value start slope (s.shortened step k)) (evaluations : Nat) :
    backtrack value s start slope trials step evaluations =
      .ok (s.shortened step k, evaluations + k + 1) := by
  obtain ⟨trials, rfl⟩ := Nat.exists_eq_add_of_lt enough
  rw [show k + trials + 1 = trials + 1 + k by omega, backtrack_add rejected long, backtrack_succ]
  exact if_pos accepted

theorem backtrack_of_rejected {k trials : Nat}
    (rejected : ∀ i < k, ¬ s.acceptsAt value start slope (s.shortened step i))
    (long : ∀ i, i + 1 < k → ¬ s.shortened step (i + 1) < leastStep) (within : k ≤ trials)
    (ended : k = trials ∨ 0 < k ∧ s.shortened step k < leastStep) (evaluations : Nat) :
    backtrack value s start slope trials step evaluations =
      .fail .noDecrease (s.shortened step k) (evaluations + k) := by
  cases k with
  | zero =>
      obtain rfl : 0 = trials := by omega
      rfl
  | succ k =>
      obtain ⟨trials, rfl⟩ := Nat.exists_eq_add_of_le within
      rw [show k + 1 + trials = trials + 1 + k by omega,
        backtrack_add (fun i less => rejected i (less.trans (Nat.lt_succ_self k)))
          (fun i less => long i (Nat.succ_lt_succ less)),
        backtrack_succ, if_neg (rejected k (Nat.lt_succ_self k)), ← Settings.shortened_succ]
      rcases ended with used | ⟨_, short⟩
      · obtain rfl : trials = 0 := by omega
        exact ite_self _
      · rw [if_pos short]
        rfl

theorem exists_of_backtrack {trials evaluations : Nat} {found : α × Nat}
    (ok : backtrack value s start slope trials step evaluations = .ok found) :
    ∃ k < trials, found.1 = s.shortened step k ∧ s.acceptsAt value start slope found.1 := by
  induction trials generalizing step evaluations with
  | zero => cases ok
  | succ trials ih =>
      rw [backtrack_succ] at ok
      split_ifs at ok with accepted tooShort
      · cases ok
        exact ⟨0, Nat.succ_pos trials, rfl, accepted⟩
      · cases ok
      · obtain ⟨k, less, found_eq, accepted⟩ := ih ok
        exact ⟨k + 1, Nat.succ_lt_succ less, found_eq, accepted⟩

theorem backtrack_fault {trials : Nat} {evaluations : Nat} {failure : SearchFailure α}
    (failed : backtrack value s start slope trials step evaluations = .error failure) :
    failure.fault = .noDecrease := by
  induction trials generalizing step evaluations with
  | zero =>
      cases failed
      rfl
  | succ trials ih =>
      simp only [backtrack, bind] at failed
      split_ifs at failed
      · cases failed
        rfl
      · exact ih failed

theorem search_fault (notRising : ¬ 0 ≤ slope) {evaluations : Nat}
    {failure : SearchFailure α}
    (failed : search value s start slope evaluations = .error failure) :
    failure.fault = .noDecrease := by
  unfold search at failed
  rw [if_neg notRising] at failed
  exact backtrack_fault failed

end Descent.Armijo
