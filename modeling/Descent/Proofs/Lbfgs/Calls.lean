import Descent.Proofs.Calls
import Descent.Lbfgs.Run
/-!
# Counters of the limited-memory method

Between the steps of a run its counters agree with the calls that it has made.  Within a line
search the evaluations are owed; the search hands their number on, with its step or with its
failure, and they are counted then.  A search that the objective ends with a failure of its own
hands on what this says of evaluations, so that their count is known only without such calls.
-/

namespace Descent.Lbfgs

open RunM (Counts)

variable {ω α : Type} {n : Nat} {f : Objective (StateM ω) α n} {options : RunOptions}

/-- A run whose counters agree with the calls that it has made but for some evaluations that it
owes.  If a trajectory is recorded, it has a point for the start and for each iteration. -/
structure Tallies (f : Objective (StateM ω) α n) (options : RunOptions) (owed : Nat)
    (r : Run (State α n) α n) (calls : Calls) : Prop where
  values_eq : calls.broken = 0 → calls.values = r.state.evaluations + owed
  gradients_eq : calls.gradients = r.state.gradients
  hessians_eq : calls.hessians = 0
  broken_eq : f.NeverSearches → calls.broken = 0
  size_eq : options.isTrajectory = true → r.path.size = r.state.iterations + 1

/-- A run in which a call has failed in a search of its own. -/
def Breaks (f : Objective (StateM ω) α n) (options : RunOptions) (r : Run (State α n) α n)
    (calls : Calls) : Prop :=
  calls.broken ≠ 0 ∧ Tallies f options 0 r calls

theorem Breaks.tallies {r : Run (State α n) α n} {calls : Calls} (breaks : Breaks f options r calls)
    (owed : Nat) : Tallies f options owed r calls where
  values_eq whole := absurd whole breaks.1
  gradients_eq := breaks.2.gradients_eq
  hessians_eq := breaks.2.hessians_eq
  broken_eq := breaks.2.broken_eq
  size_eq := breaks.2.size_eq

theorem Tallies.breaks {owed : Nat} {r : Run (State α n) α n} {calls called : Calls}
    (tallies : Tallies f options owed r calls) (gradients_eq : called.gradients = calls.gradients)
    (hessians_eq : called.hessians = calls.hessians) (searches : ¬f.NeverSearches) :
    Breaks f options r called.addBroken := by
  have broken : called.addBroken.broken ≠ 0 := Nat.succ_ne_zero _
  exact ⟨broken, fun whole => absurd whole broken, gradients_eq.trans tallies.gradients_eq,
    hessians_eq.trans tallies.hessians_eq, fun never => absurd never searches, tallies.size_eq⟩

section Steps

variable (f options)

variable [Scalar α]

variable (c : Config α) (p : Point α n)

end Steps

section Runs

variable [Scalar α]

end Runs

end Descent.Lbfgs
