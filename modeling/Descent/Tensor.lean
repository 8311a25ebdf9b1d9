import Descent.Linear.SquareMatrix
/-!
# Tensors

Arrays of numbers of any shape, row-major, for arguments whose shape is not known in
advance.  Two tensors combine entry by entry if their shapes agree from the right,
where an extent of one is stretched to match.
-/

namespace Descent

def volume (shape : List Nat) : Nat := shape.foldr (· * ·) 1

/-- A row-major array; the number of entries is that of its shape. -/
structure Tensor (α : Type) where
  shape : List Nat
  entries : Vector α (volume shape)

/-- Numbers in nested lists, as a caller writes an array down. -/
inductive Nested (α : Type) where
  | leaf (a : α)
  | node (items : List (Nested α))

namespace Nested

variable {α : Type}

def shape? : Nested α → Option (List Nat)
  | leaf _ => some []
  | node items => do
    let shapes ← items.attach.mapM fun ⟨item, _⟩ => shape? item
    match shapes with
    | [] => some [0]
    | s :: rest => if rest.all (· = s) then some (items.length :: s) else none

def leaves : Nested α → List α
  | leaf a => [a]
  | node items => items.attach.flatMap fun ⟨item, _⟩ => leaves item

end Nested

namespace Tensor

variable {α : Type}

def unravel : List Nat → Nat → List Nat
  | [], _ => []
  | _ :: rest, k => k / volume rest :: unravel rest (k % volume rest)

def ravel : List Nat → List Nat → Nat
  | _ :: rest, i :: indices => i * volume rest + ravel rest indices
  | _, _ => 0

def ofFn (shape : List Nat) (entry : List Nat → α) : Tensor α :=
  ⟨shape, Vector.ofFn fun k => entry (unravel shape k)⟩

def ofVector {n : Nat} (x : Vector α n) : Tensor α :=
  ⟨[n], x.cast (by simp [volume])⟩

def ofArray (xs : Array α) : Tensor α := ofVector xs.toVector

def ofNested (items : Nested α) : Except (Error α) (Tensor α) :=
  match items.shape? with
  | none => .error .shapeMismatch
  | some shape =>
    let entries := items.leaves.toArray
    if h : entries.size = volume shape then .ok ⟨shape, entries.toVector.cast h⟩
    else .error .shapeMismatch

def pieces (size : Nat) : Nat → List α → List (List α)
  | 0, _ => []
  | count + 1, entries => entries.take size :: pieces size count (entries.drop size)

def nest : List Nat → List α → Nested α
  | [], entries =>
    match entries with
    | a :: _ => .leaf a
    | [] => .node []
  | extent :: rest, entries => .node ((pieces (volume rest) extent entries).map (nest rest))

def toNested (t : Tensor α) : Nested α := nest t.shape t.entries.toList

def rank (t : Tensor α) : Nat := t.shape.length

/-- The entry at the given indices; indices outside the shape read as zero. -/
def get [Zero α] (t : Tensor α) (indices : List Nat) : α :=
  t.entries[ravel t.shape indices]?.getD 0

def toFlat? (t : Tensor α) : Option (Array α) :=
  match t.shape with
  | [_] => some t.entries.toArray
  | _ => none

def vector? (n : Nat) (xs : Array α) : Option (Vector α n) :=
  if h : xs.size = n then some (xs.toVector.cast h) else none

def toVector? (t : Tensor α) (n : Nat) : Option (Vector α n) := t.toFlat?.bind (vector? n)

def toSquare? [Zero α] (t : Tensor α) : Option ((n : Nat) × SquareMatrix α n) :=
  match t.shape with
  | [m, n] =>
    if m = n then some ⟨n, SquareMatrix.ofFn fun i j => t.get [i, j]⟩ else none
  | _ => none

def ofRows {m n : Nat} (rows : Vector (Vector α n) m) : Tensor α :=
  ⟨[m, n], rows.flatten.cast (by simp [volume])⟩

def transpose [Zero α] (t : Tensor α) : Tensor α :=
  ofFn t.shape.reverse fun indices => t.get indices.reverse

def commonExtent (m n : Nat) : Option Nat :=
  if m = n then some m else if m = 1 then some n else if n = 1 then some m else none

/-- The common shape of two shapes, given from the last axis on. -/
def commonReversed : List Nat → List Nat → Option (List Nat)
  | [], t => some t
  | s, [] => some s
  | m :: s, n :: t => do
    let extent ← commonExtent m n
    let rest ← commonReversed s t
    pure (extent :: rest)

def commonShape (s t : List Nat) : Option (List Nat) :=
  (commonReversed s.reverse t.reverse).map List.reverse

def project (shape indices : List Nat) : List Nat :=
  let own := indices.drop (indices.length - shape.length)
  shape.zipWith (fun extent i => if extent = 1 then 0 else i) own

/-- Combines two tensors entry by entry after stretching them to a common shape. -/
def zipWith [Zero α] (f : α → α → α) (s t : Tensor α) : Except (Error α) (Tensor α) :=
  match commonShape s.shape t.shape with
  | none => .error .shapeMismatch
  | some shape => .ok <| ofFn shape fun indices =>
      f (s.get (project s.shape indices)) (t.get (project t.shape indices))

def map (f : α → α) (t : Tensor α) : Tensor α := ⟨t.shape, t.entries.map f⟩

theorem volume_singleton (n : Nat) : volume [n] = n := by simp [volume]

theorem commonExtent_self (n : Nat) : commonExtent n n = some n := by simp [commonExtent]

end Tensor

end Descent
