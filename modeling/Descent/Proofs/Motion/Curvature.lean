import Descent.Proofs.Motion.Linear
import Descent.Curvature
/-!
# Turned histories

Where all steps and changes of the gradient are turned, the weights stay, since they are made from
inner products, and the implied inverse Hessian turns with them.  The three queues need not be
equally long.
-/

namespace Descent

variable {n : Nat} (M : Motion n)

def Correction.turned (d : Correction ℝ (Vector ℝ n)) : Correction ℝ (Vector ℝ n) :=
  { d with step := M.turn d.step, change := M.turn d.change }

@[simp] theorem Correction.step_turned (d : Correction ℝ (Vector ℝ n)) :
    (d.turned M).step = M.turn d.step := rfl

@[simp] theorem Correction.change_turned (d : Correction ℝ (Vector ℝ n)) :
    (d.turned M).change = M.turn d.change := rfl

@[simp] theorem Correction.weight_turned (d : Correction ℝ (Vector ℝ n)) :
    (d.turned M).weight = d.weight := rfl

namespace CurvatureHistory

def turned (h : CurvatureHistory ℝ (Vector ℝ n)) : CurvatureHistory ℝ (Vector ℝ n) :=
  { h with steps := h.steps.map M.turn, changes := h.changes.map M.turn }

variable (h : CurvatureHistory ℝ (Vector ℝ n))

theorem size_turned : (h.turned M).size = h.size := List.length_map _

theorem enqueue_map (capacity : Nat) (x : Vector ℝ n) (queue : List (Vector ℝ n)) :
    enqueue capacity (M.turn x) (queue.map M.turn) = (enqueue capacity x queue).map M.turn := by
  rw [enqueue, enqueue, List.map_take, List.map_cons]

theorem record_turned (step change : Vector ℝ n) (threshold : ℝ) :
    (h.turned M).record (M.turn step) (M.turn change) threshold =
      (h.record step change threshold).map (turned M) id := by
  unfold record push
  rw [M.dot_turn]
  split_ifs
  · cases quotient 1 (dot step change) with
    | error e => simp only [turned, enqueue_map, Prod.map, id]
    | ok weight => simp only [turned, enqueue_map, Prod.map, id]
  · rfl

section Product

theorem align_turned (steps changes : List (Vector ℝ n)) (weights : List ℝ) :
    align (steps.map M.turn) (changes.map M.turn) weights =
      (align steps changes weights).map (Correction.turned M) := by
  induction steps generalizing changes weights with
  | nil => rfl
  | cons step steps ih =>
      rcases changes with _ | ⟨change, changes⟩
      · rfl
      · rcases weights with _ | ⟨weight, weights⟩
        · rfl
        · exact congrArg (_ :: ·) (ih changes weights)

theorem sweeps_turned :
    (h.turned M).sweeps = h.sweeps.map (Prod.map (.turned M) (.turned M)) := by
  unfold sweeps turned
  simp only [← List.map_reverse, align_turned]
  exact List.zip_map

theorem sweep_turned (scale : ℝ)
    (sweeps : List (Correction ℝ (Vector ℝ n) × Correction ℝ (Vector ℝ n))) (q : Vector ℝ n) :
    sweep scale (sweeps.map (Prod.map (.turned M) (.turned M))) (M.turn q) =
      M.turn (sweep scale sweeps q) := by
  induction sweeps generalizing q with
  | nil => exact (M.turn_mul q scale).symm
  | cons pair older ih =>
      obtain ⟨down, up⟩ := pair
      simp only [List.map_cons, Prod.map_apply, sweep, Correction.step_turned,
        Correction.change_turned, Correction.weight_turned, M.dot_turn, ← M.turn_mul, ← M.turn_sub,
        ih, map_mul_eq_smul, ← M.turn_smul, ← M.turn_add]

theorem applyInverse_turned (v : Vector ℝ n) :
    (h.turned M).applyInverse (M.turn v) = M.turn (h.applyInverse v) := by
  unfold applyInverse
  rw [sweeps_turned]
  rcases steps : h.steps with _ | ⟨s, _⟩
  · simp [turned, steps]
  · rcases changes : h.changes with _ | ⟨y, _⟩
    · simp [turned, changes]
    · simp only [turned, steps, changes, List.map_cons, scale, M.dot_turn, sweep_turned]

end Product

end CurvatureHistory

end Descent
