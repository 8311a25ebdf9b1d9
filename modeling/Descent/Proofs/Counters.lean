import Descent.Proofs.Current
import Descent.Proofs.Lbfgs.Calls
import Descent.Proofs.TrustRegion.Calls
/-!
# Counters

The counters of a result are the calls that its run has made, also where a line search has failed
and handed its number of evaluations on with the failure.  The objective may act on a world of its
own and may fail; runs that return are compared with runs of the same objective whose calls are
counted from outside.

The failure of a line search is raised by the searches of a run.  An objective that keeps to its
contract, to have a value and derivatives, raises none, and then all counters are those of the
calls.  One that raises such a failure all the same, after a search of its own within a call, ends
the search that has called it, and the optimizer cannot tell the two apart: it takes the number that
this failure carries, which is none of the run's evaluations, for those of its own search.  So the
evaluations that the limited-memory method tells are those of its calls as long as no call has
ended so; gradients, Hessians, the trajectory and everything that the trust region tells do not
depend on it.
-/

namespace Descent

variable {ω α : Type} [Scalar α] {n : Nat}

theorem TrustRegion.Config.iterationCap_pos {c : Config α} (valid : c.check = .ok ()) :
    1 ≤ c.iterationCap := by
  unfold check at valid
  split_ifs at valid
  omega

section Square

end Square

end Descent
