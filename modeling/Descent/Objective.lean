import Descent.Linear.SquareMatrix
/-!
# Objectives

What an optimizer needs to know of the function it minimizes.  The three operations
run in a monad of the caller's choice, so that a run can be observed (its calls
counted, say) without a second optimizer.
-/

namespace Descent

abbrev Attempt (m : Type → Type) (α : Type) := ExceptT (Error α) m

/-- A function of `n` variables with its derivatives, and the name messages call it by. -/
structure Objective (m : Type → Type) (α : Type) (n : Nat) where
  name : String
  value : Vector α n → Attempt m α α
  gradient : Vector α n → Attempt m α (Vector α n)
  hessian : Vector α n → Attempt m α (SquareMatrix α n)

namespace Objective

variable {m : Type → Type} [Monad m] {α : Type} {n : Nat}

/-- An objective whose operations always succeed and have no effect. -/
def ofFunctions (name : String) (value : Vector α n → α)
    (gradient : Vector α n → Vector α n) (hessian : Vector α n → SquareMatrix α n) :
    Objective m α n where
  name := name
  value x := pure (value x)
  gradient x := pure (gradient x)
  hessian x := pure (hessian x)

end Objective

def Attempt.lift {m : Type → Type} [Monad m] {α β : Type} (result : Except (Error α) β) :
    Attempt m α β := ExceptT.mk (pure result)

end Descent
