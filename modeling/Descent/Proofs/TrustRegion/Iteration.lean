import Mathlib.Tactic
import Descent.Proofs.Run
import Descent.TrustRegion.Run
/-!
# Iterations within a trust region

What one iteration leads to once the subproblem has an answer: a step whose ratio is above
the threshold of acceptance is made, any other leaves the point where it was, and in both
cases the radius follows the ratio.
-/

namespace Descent.TrustRegion

open RunM

variable {α : Type} [Scalar α] {n : Nat} {name : String} {value : Vector α n → α}
  {gradient : Vector α n → Vector α n} {hessian : Vector α n → SquareMatrix α n} {c : Config α}
  {options : RunOptions} {p : Point α n} {model : Model α n} {r : Run (State α) α n}
  {trial : TrialStep α n}

def trialRatio (value : Vector α n → α) (p : Point α n) (trial : TrialStep α n) : α :=
  ratio p.value (value (p.location + trial.step)) trial.predictedReduction

structure Counted (c : Config α) (r r' : Run (State α) α n) (ratio : α) (onBoundary : Bool) :
    Prop where
  radius : r'.state.radius = nextRadius c r.state.radius ratio onBoundary
  iterations : r'.state.iterations = r.state.iterations + 1

omit [Scalar α] in
theorem outcome_evaluate (x : Vector α n) :
    outcome (evaluate (.ofFunctions name value gradient hessian) x) r =
      (.ok (value x), { r with
        state := { r.state with evaluations := r.state.evaluations + 1 } }) := rfl

section Advance

variable (name value gradient hessian options model)

/-- What an iteration leads to when the subproblem is solved; only a rejected step in the least
region ends the run. -/
theorem advance_eq
    (solved : Subproblem.solve c.method model.gradient model.hessian r.state.radius = .ok trial) :
    ∃ r', outcome (advance (.ofFunctions name value gradient hessian) c options p model) r =
        (.ok (if c.acceptance < trialRatio value p trial then
            .moved ⟨p.location + trial.step, value (p.location + trial.step), none⟩
          else if r.state.radius ≤ c.leastRadius then .collapsed ⟨p.location, p.value, some model⟩
          else .moved ⟨p.location, p.value, some model⟩), r') ∧
      Counted c r r' (trialRatio value p trial) trial.onBoundary ∧
      r'.path = if c.acceptance < trialRatio value p trial then
          extendPath options r.path (p.location + trial.step)
        else r.path := by
  unfold trialRatio advance
  rw [outcome_bind_of_ok outcome_state]
  dsimp only
  rw [outcome_bind_of_ok (outcome_check_of_eq solved),
    outcome_bind_of_ok (outcome_evaluate _)]
  dsimp only
  rw [outcome_bind_of_ok (outcome_update _)]
  by_cases accepted : c.acceptance <
      ratio p.value (value (p.location + trial.step)) trial.predictedReduction
  · simp only [decide_eq_true accepted, if_true, if_pos accepted]
    exact ⟨_, rfl, ⟨rfl, rfl⟩, rfl⟩
  · by_cases least : r.state.radius ≤ c.leastRadius
    · simp only [decide_eq_false accepted, decide_eq_true least, Bool.false_eq_true, if_false,
        if_neg accepted, if_pos least]
      exact ⟨_, rfl, ⟨rfl, rfl⟩, rfl⟩
    · simp only [decide_eq_false accepted, decide_eq_false least, Bool.false_eq_true, if_false,
        Bool.and_false, if_neg accepted, if_neg least]
      exact ⟨_, rfl, ⟨rfl, rfl⟩, rfl⟩

end Advance

section Refresh

def Model.at (gradient : Vector α n → Vector α n) (hessian : Vector α n → SquareMatrix α n)
    (x : Vector α n) : Model α n := ⟨gradient x, hessian x⟩

omit [Scalar α] in
theorem outcome_modelAt (x : Vector α n) :
    outcome (modelAt (.ofFunctions name value gradient hessian) x) r =
      (.ok (.at gradient hessian x), { r with
        state := { r.state with
          gradients := r.state.gradients + 1, hessians := r.state.hessians + 1 } }) := rfl

variable (name value options) in
theorem refresh_eq (known : ∀ model ∈ p.model, model = .at gradient hessian p.location)
    (symmetric : options.isDebug = true →
      (hessian p.location).requireSymmetric SquareMatrix.symmetryTolerance = .ok ()) :
    ∃ r', outcome (refresh (.ofFunctions name value gradient hessian) options p) r =
        (.ok (.at gradient hessian p.location), r') ∧
      r'.state.radius = r.state.radius ∧ r'.state.iterations = r.state.iterations := by
  unfold refresh
  cases found : p.model with
  | some model =>
      rw [known model found]
      exact ⟨r, rfl, rfl, rfl⟩
  | none =>
      dsimp only
      rw [outcome_bind_of_ok (outcome_modelAt _)]
      cases debug : options.isDebug with
      | false => exact ⟨_, rfl, rfl, rfl⟩
      | true =>
          have checked : (Model.at gradient hessian p.location).hessian.requireSymmetric
              SquareMatrix.symmetryTolerance = .ok () := symmetric debug
          simp only [if_true]
          rw [outcome_bind_of_ok (outcome_check_of_eq checked)]
          exact ⟨_, rfl, rfl, rfl⟩

end Refresh

section Ends

variable (name value gradient hessian options c)

theorem depart_eq {x : Vector α n}
    (consistent : options.isDebug = true →
      Id.run ((Objective.ofFunctions name value gradient hessian).requireConsistent x
        Objective.defaultTolerance).run = .ok ()) :
    ∃ r', outcome (depart (.ofFunctions name value gradient hessian) c options x) r =
        (.ok ⟨x, value x, none⟩, r') ∧
      r'.state.radius = c.initialRadius ∧ r'.state.iterations = 0 := by
  unfold depart prepare
  cases debug : options.isDebug with
  | false => exact ⟨_, rfl, rfl, rfl⟩
  | true =>
      simp only [if_true, bind_assoc]
      rw [outcome_bind_of_ok (outcome_update _)]
      rw [outcome_bind_of_ok (outcome_ask_of_eq (consistent debug))]
      exact ⟨_, rfl, rfl, rfl⟩

theorem finish_eq {q : Point α n} (ending : Ending α) :
    ∃ result r', outcome (finish (.ofFunctions name value gradient hessian) q ending) r =
        (.ok result, r') ∧
      result.ending = ending ∧ result.iterations = r.state.iterations := by
  unfold finish
  cases q.model with
  | some model => exact ⟨_, _, rfl, rfl, rfl⟩
  | none => exact ⟨_, _, rfl, rfl, rfl⟩

end Ends

end Descent.TrustRegion
