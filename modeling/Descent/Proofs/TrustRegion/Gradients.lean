import Descent.Proofs.TrustRegion.Calls
import Descent.Proofs.TrustRegion.Reaches
/-!
# Gradients that a run computes

A run computes a gradient for its start and one for each point that an accepted step leads to.
The last one is owed until the next iteration begins or the run ends, and no iteration computes
any other.
-/

namespace Descent.TrustRegion

open RunM

variable {α : Type} [Scalar α] {n : Nat} {f : Objective Id α n} {c : Config α}
  {options : RunOptions} {p q : Point α n} {model : Model α n} {progress : Progress α n}
  {r r' : Run (State α) α n}

section Steps

omit [Scalar α] in
theorem modelAt_gradients {x : Vector α n} (ok : outcome (modelAt f x) r = (.ok model, r')) :
    r'.state.gradients = r.state.gradients + 1 := by
  unfold modelAt at ok
  obtain ⟨_, _, asked, ok⟩ := outcome_bind_eq_ok.mp ok
  obtain ⟨_, rfl⟩ := outcome_ask_eq_ok asked
  obtain ⟨_, _, asked, rest⟩ := outcome_bind_eq_ok.mp ok
  obtain ⟨_, rfl⟩ := outcome_ask_eq_ok asked
  cases rest
  rfl

theorem refresh_gradients (ok : outcome (refresh f options p) r = (.ok model, r')) :
    r'.state.gradients = r.state.gradients + p.owed := by
  unfold refresh at ok
  unfold Point.owed
  cases found : p.model with
  | some stored =>
      rw [found] at ok
      cases ok
      rfl
  | none =>
      rw [found] at ok
      obtain ⟨_, _, computed, ok⟩ := outcome_bind_eq_ok.mp ok
      have counted := modelAt_gradients computed
      split at ok
      · obtain ⟨⟨⟩, _, checked, rest⟩ := outcome_bind_eq_ok.mp ok
        obtain ⟨_, rfl⟩ := outcome_check_eq_ok checked
        cases rest
        exact counted
      · cases ok
        exact counted

omit [Scalar α] in
theorem evaluate_gradients (x : Vector α n) :
    Keeps (fun r => r.state.gradients) (evaluate f x) :=
  Keeps.bind (.ask _) fun _ _ => rfl

theorem advance_gradients : Keeps (fun r => r.state.gradients) (advance f c options p model) := by
  unfold advance
  refine Keeps.bind (fun _ => rfl) fun _ => Keeps.bind (fun _ => rfl) fun trial => ?_
  refine Keeps.bind (evaluate_gradients _) fun value => Keeps.bind (fun _ => rfl) fun _ => ?_
  by_cases accepted : c.acceptance < ratio p.value value trial.predictedReduction
  · simp only [decide_eq_true accepted, if_true]
    exact fun _ => rfl
  · simp only [decide_eq_false accepted, Bool.false_eq_true, if_false]
    refine Keeps.bind (fun _ => rfl) fun _ => Keeps.bind (fun _ => rfl) fun _ =>
      Keeps.bind (fun _ => rfl) fun _ => ?_
    split
    · exact fun _ => rfl
    · exact fun _ => rfl

theorem depart_gradients {x : Vector α n} (ok : outcome (depart f c options x) r = (.ok p, r')) :
    r'.state.gradients = 0 := by
  have counted : ∀ r₁ : Run (State α) α n, outcome (prepare f c options x) r = (.ok (), r₁) →
      r₁.state.gradients = 0 := by
    intro r₁ prepared
    unfold prepare at prepared
    rw [outcome_bind_of_ok (outcome_update _)] at prepared
    dsimp only at prepared
    split at prepared
    · obtain ⟨⟨⟩, _, consistent, rest⟩ := outcome_bind_eq_ok.mp prepared
      obtain ⟨_, rfl⟩ := outcome_ask_eq_ok consistent
      cases rest
      rfl
    · cases prepared
      rfl
  unfold depart at ok
  obtain ⟨⟨⟩, _, prepared, ok⟩ := outcome_bind_eq_ok.mp ok
  obtain ⟨value, _, evaluated, rest⟩ := outcome_bind_eq_ok.mp ok
  cases rest
  exact ((evaluate_gradients x).of_eq evaluated).trans (counted _ prepared)

theorem finish_gradients {ending : Ending α} {result : RunResult α n}
    (ok : outcome (finish f p ending) r = (.ok result, r')) :
    result.gradients = r.state.gradients + p.owed := by
  unfold finish at ok
  rw [outcome_bind_of_ok (outcome_update _)] at ok
  unfold Point.owed
  cases found : p.model with
  | some model =>
      rw [found] at ok
      cases ok
      rfl
  | none =>
      rw [found] at ok
      obtain ⟨_, _, computed, rest⟩ := outcome_bind_eq_ok.mp ok
      unfold gradientAt at computed
      obtain ⟨_, _, asked, counted⟩ := outcome_bind_eq_ok.mp computed
      obtain ⟨_, rfl⟩ := outcome_ask_eq_ok asked
      cases counted
      cases rest
      rfl

end Steps

section Runs

variable {name : String} {value : Vector α n → α} {gradient : Vector α n → Vector α n}
  {hessian : Vector α n → SquareMatrix α n} {limit count : Nat} {x : Vector α n} {s : State α}
  {done : List (Iteration α n)}

def acceptances (value : Vector α n → α) (c : Config α) (done : List (Iteration α n)) : Nat :=
  done.countP fun i => decide (i.IsAccepted value c)

theorem acceptances_of_isAccepted {i : Iteration α n} (accepted : i.IsAccepted value c) :
    acceptances value c (i :: done) = acceptances value c done + 1 := by
  simp [acceptances, accepted]

theorem acceptances_of_not_isAccepted {i : Iteration α n} (rejected : ¬ i.IsAccepted value c) :
    acceptances value c (i :: done) = acceptances value c done := by
  simp [acceptances, rejected]

theorem Reaches.gradients_eq
    (reached : Reaches (.ofFunctions name value gradient hessian) c options limit x s done r
      progress) :
    r.state.gradients + progress.point.owed = 1 + acceptances value c done := by
  induction reached with
  | depart departed =>
      obtain ⟨rfl, _⟩ := depart_eq_ok departed
      rw [depart_gradients departed]
      rfl
  | @complete done r r₁ r₂ p model trial progress before _ refreshed _ solved advanced ih =>
      obtain ⟨progress_eq, _⟩ := advance_eq_ok solved advanced
      have kept : r₂.state.gradients = r.state.gradients + p.owed :=
        (advance_gradients.of_eq advanced).trans (refresh_gradients refreshed)
      rw [Progress.point_moved] at ih
      -- A step that is accepted leads to a point without a model, and only such a step does.
      by_cases accepted : c.acceptance < trialRatio value p trial
      · rw [if_pos accepted] at progress_eq
        have owed : progress.point.owed = 1 := by
          rw [progress_eq]
          rfl
        rw [kept, ih, owed, acceptances_of_isAccepted (i := ⟨p, model, _, trial, _⟩) accepted]
        omega
      · rw [if_neg accepted] at progress_eq
        have settled : progress.point.owed = 0 := by
          rw [progress_eq]
          split <;> rfl
        rw [kept, ih, settled, Nat.add_zero,
          acceptances_of_not_isAccepted (i := ⟨p, model, _, trial, _⟩) accepted]

theorem Concludes.gradients_eq {ending : Ending α}
    (concludes : Concludes f c options limit count r progress r' q ending) :
    r'.state.gradients + q.owed = r.state.gradients + progress.point.owed := by
  cases concludes with
  | exhausted | collapsed => rfl
  | converged _ refreshed => exact refresh_gradients refreshed

/-- What a result tells of gradients: their number is one more than that of the steps that its
run has accepted, and the norm is that of the gradient where the run has come. -/
theorem optimize_gradients {dimension : Dimension} {start : Tensor α} {result : RunResult α n}
    (accepted : checkRequest dimension c.iterationCap options.budget start = .ok (x, limit))
    (ok : (Id.run (optimize (.ofFunctions name value gradient hessian) c dimension s start
      options)).result = .ok result) :
    ∃ done r progress,
      Reaches (.ofFunctions name value gradient hessian) c options limit x s done r progress ∧
      Ends gradient c limit done.length progress result.ending ∧
      result.iterations = done.length ∧ result.gradients = 1 + acceptances value c done ∧
      result.iterate = progress.point.location ∧
      result.gradientNorm = norm (gradient progress.point.location) := by
  obtain ⟨_, ran⟩ := Call.exists_run accepted ok
  unfold run at ran
  obtain ⟨p₀, r₀, departed, rest⟩ := outcome_bind_eq_ok.mp ran
  obtain ⟨⟨p, ending⟩, r', iterated, finished⟩ := outcome_bind_eq_ok.mp rest
  obtain ⟨done, r, progress, reached, concludes⟩ :=
    iterate_concludes (.depart departed) (Nat.zero_add _) iterated
  obtain ⟨carries, _, _, location_eq, _⟩ := reached.carries.concluded concludes
  obtain ⟨rfl, tells⟩ := finish_tells carries.isCurrent finished
  obtain ⟨_, gradient_eq, norm_eq⟩ := tells.gradientNorm_eq
  rw [location_eq] at gradient_eq
  cases gradient_eq
  refine ⟨done, r, progress, reached, concludes.ends reached.isOf,
    tells.iterations_eq.trans carries.iterations_eq, ?_, tells.iterate_eq.trans location_eq,
    norm_eq⟩
  rw [finish_gradients finished, concludes.gradients_eq, reached.gradients_eq]

end Runs

end Descent.TrustRegion
