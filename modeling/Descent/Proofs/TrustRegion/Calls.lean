import Descent.Proofs.Calls
import Descent.Proofs.TrustRegion.Course
/-!
# Counters of the trust-region method

A run evaluates its objective once at the start and once in each iteration, and computes a model
for the start and for each point that an accepted step leads to.  A point that has been reached
owes its model until the next iteration begins; a run that ends there computes the gradient alone.
-/

namespace Descent

def Event.isAccepted? {α : Type} : Event α → Option Bool
  | regionStep _ _ _ _ _ isAccepted => some isAccepted
  | _ => none

def verdicts {α : Type} (events : Array (Event α)) : List Bool :=
  events.toList.filterMap Event.isAccepted?

end Descent

namespace Descent.TrustRegion

open RunM (Counts)

variable {ω α : Type} {n : Nat} {f : Objective (StateM ω) α n} {options : RunOptions}

def Point.owed (p : Point α n) : Nat :=
  match p.model with
  | none => 1
  | some _ => 0

def work (r : Run (State α) α n) : Calls :=
  ⟨r.state.evaluations, r.state.gradients, r.state.hessians, 0⟩

/-- A run that has made as many calls as it counts, among them the given number of evaluations,
and has completed `done` iterations.  Each accepted step has led to a point with a model, but for
those models that are owed. -/
structure Tallies (options : RunOptions) (evaluated done owed : Nat) (r : Run (State α) α n)
    (calls : Calls) : Prop where
  calls_eq : calls = work r
  evaluations_eq : r.state.evaluations = evaluated
  iterations_eq : r.state.iterations = done
  length_eq : (verdicts r.events).length = done
  gradients_eq : r.state.gradients + owed = 1 + (verdicts r.events).count true
  hessians_eq : r.state.hessians = r.state.gradients
  size_eq : options.isTrajectory = true → r.path.size = 1 + (verdicts r.events).count true

/-- The model of a point is owed exactly if the point is the start or the last step was accepted. -/
def Arrives (p : Point α n) (r : Run (State α) α n) : Prop :=
  p.model = none ↔ (true :: verdicts r.events).getLast? = some true

/-- An iteration that is reported completes the tally: it owes a model if it accepted its step. -/
theorem Tallies.reported {evaluated done : Nat} {r r' : Run (State α) α n} {calls : Calls}
    {q : Point α n} (tallies : Tallies options evaluated done 0 r calls) (isAccepted : Bool)
    (model_eq : q.model = none ↔ isAccepted = true) (work_eq : work r' = work r)
    (iterations_eq : r'.state.iterations = r.state.iterations + 1)
    (verdicts_eq : verdicts r'.events = verdicts r.events ++ [isAccepted])
    (size_eq : options.isTrajectory = true → r'.path.size = r.path.size + isAccepted.toNat) :
    Tallies options evaluated (done + 1) q.owed r' calls ∧ Arrives q r' := by
  have evaluations_same : r'.state.evaluations = r.state.evaluations :=
    congrArg Calls.values work_eq
  have gradients_same : r'.state.gradients = r.state.gradients := congrArg Calls.gradients work_eq
  have hessians_same : r'.state.hessians = r.state.hessians := congrArg Calls.hessians work_eq
  have count_eq : (verdicts r'.events).count true =
      (verdicts r.events).count true + isAccepted.toNat := by
    cases isAccepted <;> simp [verdicts_eq]
  have owed_eq : q.owed = isAccepted.toNat := by
    unfold Point.owed
    cases isAccepted <;> cases found : q.model <;> simp_all
  have gradients_eq := tallies.gradients_eq
  refine ⟨⟨tallies.calls_eq.trans work_eq.symm, evaluations_same.trans tallies.evaluations_eq,
    iterations_eq.trans (congrArg (· + 1) tallies.iterations_eq), ?_, ?_, ?_, fun asked => ?_⟩, ?_⟩
  · simp [verdicts_eq, tallies.length_eq]
  · omega
  · rw [hessians_same, gradients_same, tallies.hessians_eq]
  · have before := tallies.size_eq asked
    have after := size_eq asked
    omega
  · rw [Arrives, verdicts_eq, ← List.cons_append, List.getLast?_concat, model_eq, Option.some_inj]

section Steps

variable (f options) (evaluated done owed : Nat)

variable [Scalar α] (c : Config α)

def Stops (q : Point α n) (ending : Ending α) (r : Run (State α) α n) : Prop :=
  q.model = none ↔ ending.status = .iterationLimit ∧ (verdicts r.events).getLast? = some true

end Steps

section Runs

variable [Scalar α]

end Runs

end Descent.TrustRegion
