import Descent.Proofs.Linear.Space
import Descent.Curvature
/-!
# Reached histories

The histories that storing and clearing lead to, in exact arithmetic.  Whatever the order of
the calls, the three queues hold one list of pairs, each with a positive product and its
reciprocal as weight.
-/

namespace Descent.CurvatureHistory

variable {n : Nat}

theorem capacity_create {α V : Type} {capacity : Int} {h : CurvatureHistory α V}
    (created : create capacity = .ok h) : h.capacity = capacity.toNat := by
  unfold create at created
  split_ifs at created
  cases created
  rfl

theorem capacity_record {α : Type} [Scalar α] (h : CurvatureHistory α (Vector α n))
    (step change : Vector α n) (threshold : α) :
    (h.record step change threshold).1.capacity = h.capacity := by
  unfold record push
  split
  · split <;> rfl
  · rfl

/-- The histories of a capacity that recorded pairs and clearing lead to; no threshold is
negative. -/
inductive Reached (capacity : Int) : CurvatureHistory ℝ (Vector ℝ n) → Prop
  | create {h : CurvatureHistory ℝ (Vector ℝ n)} : create capacity = .ok h → Reached capacity h
  | record {h : CurvatureHistory ℝ (Vector ℝ n)} (step change : Vector ℝ n) {threshold : ℝ} :
      Reached capacity h → 0 ≤ threshold → Reached capacity (h.record step change threshold).1
  | clear {h : CurvatureHistory ℝ (Vector ℝ n)} : Reached capacity h → Reached capacity h.clear

noncomputable def correction (pair : Vector ℝ n × Vector ℝ n) :
    Correction ℝ (Vector ℝ n) :=
  ⟨pair.1, pair.2, 1 / dot pair.1 pair.2⟩

/-- A history whose queues hold the given pairs, newest first, with positive products. -/
structure Holds (h : CurvatureHistory ℝ (Vector ℝ n))
    (newestFirst : List (Vector ℝ n × Vector ℝ n)) : Prop where
  steps : h.steps = newestFirst.map Prod.fst
  changes : h.changes = newestFirst.map Prod.snd
  weights : h.weights = newestFirst.map fun pair => 1 / dot pair.1 pair.2
  product_pos : ∀ pair ∈ newestFirst, 0 < dot pair.1 pair.2

namespace Holds

variable {h : CurvatureHistory ℝ (Vector ℝ n)} {newestFirst : List (Vector ℝ n × Vector ℝ n)}

theorem pairs_eq (holds : Holds h newestFirst) : h.pairs = newestFirst.reverse := by
  rw [pairs, holds.steps, holds.changes, ← List.zip_of_prod rfl rfl]

theorem clear : Holds h.clear ([] : List (Vector ℝ n × Vector ℝ n)) :=
  ⟨rfl, rfl, rfl, by simp⟩

/-- A pair that is kept has a positive product, so that its weight exists and all three
queues move on together. -/
theorem record (holds : Holds h newestFirst) (step change : Vector ℝ n) {threshold : ℝ}
    (nonneg : 0 ≤ threshold) :
    Holds (h.record step change threshold).1
      (if threshold < dot step change then ((step, change) :: newestFirst).take h.capacity
        else newestFirst) := by
  unfold CurvatureHistory.record
  by_cases kept : threshold < dot step change
  · have product : 0 < dot step change := nonneg.trans_lt kept
    rw [push, if_pos kept, if_pos kept, quotient_real product.ne']
    refine ⟨?_, ?_, ?_, ?_⟩
    · simp [enqueue, holds.steps, List.map_take]
    · simp [enqueue, holds.changes, List.map_take]
    · simp [enqueue, holds.weights, List.map_take]
    · intro pair member
      rcases List.mem_cons.mp (List.mem_of_mem_take member) with rfl | older
      · exact product
      · exact holds.product_pos pair older
  · rw [push_of_not_lt kept, if_neg kept]
    exact holds

theorem size_eq (holds : Holds h newestFirst) : h.size = newestFirst.length := by
  rw [size, holds.steps, List.length_map]

theorem record_of_lt (holds : Holds h newestFirst) (room : 0 < h.capacity)
    {step change : Vector ℝ n} {threshold : ℝ} (nonneg : 0 ≤ threshold)
    (kept : threshold < dot step change) :
    (h.record step change threshold).1.pairs.getLast? = some (step, change) ∧
      (h.record step change threshold).1.size = min h.capacity (h.size + 1) := by
  have after := holds.record step change nonneg
  rw [if_pos kept] at after
  constructor
  · obtain ⟨k, capacity_eq⟩ := Nat.exists_eq_succ_of_ne_zero room.ne'
    rw [after.pairs_eq, capacity_eq, List.take_succ_cons, List.reverse_cons, List.getLast?_concat]
  · rw [after.size_eq, List.length_take, List.length_cons, holds.size_eq]

theorem sweeps_eq (holds : Holds h newestFirst) :
    h.sweeps = newestFirst.map fun pair => (correction pair, correction pair) := by
  have aligned : ∀ pairs : List (Vector ℝ n × Vector ℝ n),
      align (pairs.map Prod.fst) (pairs.map Prod.snd)
        (pairs.map fun pair => 1 / dot pair.1 pair.2) = pairs.map correction := by
    intro pairs
    induction pairs with
    | nil => rfl
    | cons pair pairs ih => exact congrArg (correction pair :: ·) ih
  rw [sweeps, holds.steps, holds.changes, holds.weights, ← List.map_reverse, ← List.map_reverse,
    ← List.map_reverse, aligned, aligned, List.map_reverse, List.reverse_reverse]
  simp [List.zip_map']

end Holds

theorem create_holds {capacity : Int} {h : CurvatureHistory ℝ (Vector ℝ n)}
    (created : create capacity = .ok h) : Holds h [] := by
  unfold create at created
  split_ifs at created
  cases created
  exact ⟨rfl, rfl, rfl, by simp⟩

theorem Reached.holds {capacity : Int} {h : CurvatureHistory ℝ (Vector ℝ n)}
    (reached : Reached capacity h) : ∃ newestFirst, Holds h newestFirst := by
  induction reached with
  | create created => exact ⟨[], create_holds created⟩
  | record step change _ nonneg ih =>
      obtain ⟨newestFirst, holds⟩ := ih
      exact ⟨_, holds.record step change nonneg⟩
  | clear _ _ => exact ⟨[], Holds.clear⟩

end Descent.CurvatureHistory
