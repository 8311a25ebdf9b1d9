import Descent.Curvature
import Descent.Tensor
/-!
# Curvature histories of mixed lengths

A history whose pairs need not have one length.  Products of vectors of different
lengths are shape mismatches; otherwise the operations are those on equal lengths.
-/

namespace Descent

abbrev AnyVector (α : Type) := (n : Nat) × Vector α n

abbrev MixedHistory (α : Type) := CurvatureHistory α (AnyVector α)

namespace MixedHistory

variable {α : Type} [Scalar α]

def castTo? (n : Nat) (v : AnyVector α) : Option (Vector α n) := Tensor.vector? n v.2.toArray

def record (h : MixedHistory α) (step change : AnyVector α) (threshold : α) :
    MixedHistory α × Except (Error α) Bool :=
  match castTo? step.1 change with
  | none => (h, .error .shapeMismatch)
  | some same => h.push step change (dot step.2 same) threshold

def correction? (n : Nat) (c : Correction α (AnyVector α)) :
    Option (Correction α (Vector α n)) := do
  pure ⟨← castTo? n c.step, ← castTo? n c.change, c.weight⟩

/-- The product of the implied inverse Hessian with a vector; every correction that takes
part must have its length. -/
def applyInverse {n : Nat} (h : MixedHistory α) (v : Vector α n) :
    Except (Error α) (Vector α n) :=
  match h.steps, h.changes with
  | step :: _, change :: _ =>
    let scale := (castTo? step.1 change).map (CurvatureHistory.scale step.2)
    let sweeps := h.sweeps.mapM fun (down, up) => do
      pure (← correction? n down, ← correction? n up)
    match scale, sweeps with
    | some scale, some sweeps => .ok (CurvatureHistory.sweep scale sweeps v)
    | _, _ => .error .shapeMismatch
  | _, _ => .ok v

end MixedHistory

end Descent
