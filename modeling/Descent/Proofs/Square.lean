import Descent.Proofs.Linear.Space
import Descent.Objective
/-!
# The square of a number

A function of one variable, over any numbers, on which the runs of the instances are made.
-/

namespace Descent.Square

variable {α : Type} [Scalar α]

def value (x : Vector α 1) : α := dot x x

def gradient (x : Vector α 1) : Vector α 1 := x + x

def hessian (_ : Vector α 1) : SquareMatrix α 1 := #v[#v[1 + 1]]

abbrev objective {m : Type → Type} [Monad m] : Objective m α 1 :=
  .ofFunctions "square" value gradient hessian

theorem gradient_singleton (a : α) : gradient #v[a] = #v[a + a] := by
  ext i hi
  obtain rfl : i = 0 := by omega
  simp [gradient]

theorem gradient_eq (x : Vector ℝ 1) : gradient x = (2 : ℝ) • x :=
  (two_smul ℝ x).symm

end Descent.Square
