import Descent.Linear.Vector
/-!
# Curvature history

A bounded store of steps and the changes of the gradient along them, and the product
of the inverse Hessian that they imply with a vector.  The store is three queues
(steps, changes, weights), newest entry first.
-/

namespace Descent

structure CurvatureHistory (α V : Type) where
  capacity : Nat
  steps : List V
  changes : List V
  weights : List α

/-- A step, the change of the gradient along it, and the reciprocal of their product. -/
structure Correction (α V : Type) where
  step : V
  change : V
  weight : α

namespace CurvatureHistory

variable {α V : Type}

def greatestCapacity : Nat := Nat.pow 2 63 - 1

def create (capacity : Int) : Except (Error α) (CurvatureHistory α V) :=
  if capacity < 1 then .error (.setting (.historyCapacity capacity))
  else if greatestCapacity < capacity.toNat then .error .overflow
  else .ok ⟨capacity.toNat, [], [], []⟩

def size (h : CurvatureHistory α V) : Nat := h.steps.length

def clear (h : CurvatureHistory α V) : CurvatureHistory α V :=
  { h with steps := [], changes := [], weights := [] }

/-- The stored pairs, oldest first. -/
def pairs (h : CurvatureHistory α V) : List (V × V) := (h.steps.zip h.changes).reverse

def enqueue {β : Type} (capacity : Nat) (b : β) (queue : List β) : List β :=
  (b :: queue).take capacity

/-- Whatever a full queue has lost does not matter to the next arrival. -/
theorem enqueue_take {β : Type} (capacity : Nat) (b : β) (queue : List β) :
    enqueue capacity b (queue.take capacity) = (b :: queue).take capacity := by
  cases capacity with
  | zero => rfl
  | succ capacity => simp [enqueue, List.take_take]

/-- Stores a pair whose inner product is `product`, unless that is no more than
`threshold`; the answer says whether it was stored.  The weight comes last: if the
product has no reciprocal, step and change stay without one. -/
def push [Scalar α] (h : CurvatureHistory α V) (step change : V) (product threshold : α) :
    CurvatureHistory α V × Except (Error α) Bool :=
  if threshold < product then
    let h := { h with
      steps := enqueue h.capacity step h.steps
      changes := enqueue h.capacity change h.changes }
    match quotient 1 product with
    | .ok weight => ({ h with weights := enqueue h.capacity weight h.weights }, .ok true)
    | .error e => (h, .error e)
  else (h, .ok false)

def align (steps changes : List V) (weights : List α) : List (Correction α V) :=
  (steps.zip (changes.zip weights)).map fun (step, change, weight) => ⟨step, change, weight⟩

/-- The corrections on the way down, newest first, each beside the one on the way up at
the same depth.  They are the same as long as every pair has its weight. -/
def sweeps (h : CurvatureHistory α V) : List (Correction α V × Correction α V) :=
  (align h.steps h.changes h.weights).zip
    (align h.steps.reverse h.changes.reverse h.weights.reverse).reverse

@[simp] theorem size_clear (h : CurvatureHistory α V) : h.clear.size = 0 := rfl

@[simp] theorem pairs_clear (h : CurvatureHistory α V) : h.clear.pairs = [] := rfl

variable [Scalar α] {n : Nat}

/-- The two-loop recursion: each correction acts before and after all older ones, and in
the middle the vector is multiplied by `scale`. -/
def sweep (scale : α) :
    List (Correction α (Vector α n) × Correction α (Vector α n)) → Vector α n → Vector α n
  | [], q => scale * q
  | (down, up) :: older, q =>
    let a := down.weight * dot down.step q
    let r := sweep scale older (q - a * down.change)
    let b := up.weight * dot up.change r
    r + up.step.map (· * (a - b))

def scale (step change : Vector α n) : α := dot step change / dot change change

def applyInverse (h : CurvatureHistory α (Vector α n)) (v : Vector α n) : Vector α n :=
  match h.steps, h.changes with
  | step :: _, change :: _ => sweep (scale step change) h.sweeps v
  | _, _ => v

def record (h : CurvatureHistory α (Vector α n)) (step change : Vector α n) (threshold : α) :
    CurvatureHistory α (Vector α n) × Except (Error α) Bool :=
  h.push step change (dot step change) threshold

theorem push_of_not_lt {h : CurvatureHistory α V} {step change : V} {product threshold : α}
    (refused : ¬ threshold < product) :
    h.push step change product threshold = (h, .ok false) := if_neg refused

end CurvatureHistory

end Descent
