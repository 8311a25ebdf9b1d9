import Descent.Linear.SquareMatrix
/-!
# Filling buffers

A derivative is handed over as an array of its own size.  A single entry, row or
column is repeated as often as the target needs; any other size that differs from
the target is a shape mismatch.  A derivative that is computed in place is written over
stretches of a buffer, whose other entries stay.
-/

namespace Descent.Buffer

variable {α : Type}

/-- The items as a vector of length `n`, a single one repeated. -/
def stretch? (n : Nat) (items : Array α) : Option (Vector α n) :=
  if h : items.size = n then some (items.toVector.cast h)
  else match items with
    | #[a] => some (Vector.replicate n a)
    | _ => none

def vector (n : Nat) (entries : Array α) : Except (Error α) (Vector α n) :=
  match stretch? n entries with
  | some x => .ok x
  | none => .error .shapeMismatch

def matrix (n : Nat) (rows : Array (Array α)) : Except (Error α) (SquareMatrix α n) := do
  let width := (rows[0]?.map Array.size).getD 0
  if rows.all (·.size = width) then
    match stretch? n (← rows.mapM (vector n)) with
    | some A => pure A
    | none => throw .shapeMismatch
  else throw .shapeMismatch

def combine {n k : Nat} (f : α → α → α) (start : Nat) (entries : Vector α k)
    (out : Vector α n) : Vector α n :=
  Vector.ofFn fun i =>
    if h : start ≤ i.val ∧ i.val - start < k then f (out.get i) (entries.get ⟨i.val - start, h.2⟩)
    else out.get i

def overwrite {n k : Nat} (start : Nat) (entries : Vector α k) (out : Vector α n) : Vector α n :=
  combine (fun _ entry => entry) start entries out

theorem getElem_combine {n k : Nat} (f : α → α → α) (start : Nat) (entries : Vector α k)
    (out : Vector α n) (i : Nat) (hi : i < n) :
    (combine f start entries out)[i] =
      if h : start ≤ i ∧ i - start < k then f out[i] (entries.get ⟨i - start, h.2⟩)
      else out[i] := by
  rw [combine, Vector.getElem_ofFn]
  rfl

@[simp] theorem overwrite_zero {n : Nat} (entries out : Vector α n) :
    overwrite 0 entries out = entries := by
  ext i hi
  rw [overwrite, getElem_combine, dif_pos ⟨Nat.zero_le i, hi⟩]
  rfl

end Descent.Buffer
