import Descent.Proofs.Linear.Space
import Descent.Proofs.Curvature.Requests
/-!
# The window of a history

In exact arithmetic and with no negative threshold, every pair that is let in has a positive
product, so that its weight exists and the three queues stay side by side.  The history is then a
window on the pairs that were accepted since the last clearing: it shows the newest, as many as
there is room for.
-/

namespace Descent.MixedHistory

open CurvatureHistory (create greatestCapacity)

noncomputable def accepted (requests : List (Request ℝ)) : List (AnyVector ℝ × AnyVector ℝ) :=
  (arrivals requests).map fun a => (a.step, a.change)

def Weighs (pair : AnyVector ℝ × AnyVector ℝ) (weight : ℝ) : Prop :=
  ∃ product, product? pair.1 pair.2 = some product ∧ weight = 1 / product ∧ 0 < weight

section Positive

variable {requests : List (Request ℝ)} {a : Arrival ℝ}

theorem product_pos (nonneg : ∀ step change threshold,
    .record step change threshold ∈ requests → 0 ≤ threshold) (arrived : a ∈ arrivals requests) :
    0 < a.product := by
  obtain ⟨threshold, asked, _, above⟩ := exists_of_mem_arrivals arrived
  exact (nonneg _ _ _ asked).trans_lt above

theorem weight?_of_pos (positive : 0 < a.product) : a.weight? = some (1 / a.product) := by
  simp [Arrival.weight?, positive.ne']

theorem Retains.reverse_weights_eq {h : MixedHistory ℝ} {capacity : Nat}
    {arrived : List (Arrival ℝ)} (retains : Retains h capacity arrived)
    (positive : ∀ a ∈ arrived, 0 < a.product) :
    h.weights.reverse = (arrived.rtake capacity).map fun a => 1 / a.product := by
  have weights : arrived.filterMap Arrival.weight? = arrived.map fun a => 1 / a.product := by
    rw [← List.filterMap_eq_map]
    exact List.filterMap_congr fun a member => weight?_of_pos (positive a member)
  rw [retains.weights_eq, weights, List.rtake_eq_reverse_take_reverse, ← List.map_reverse,
    ← List.map_take, List.map_reverse]

end Positive

/-- After any requests the history holds the newest of the pairs accepted since the last clearing,
each beside the reciprocal of its product; a pair is accepted if its product is above its
threshold, and otherwise nothing changes. -/
theorem replay_keeps_newest {capacity : Int} {h : MixedHistory ℝ}
    (created : create capacity = .ok h) (requests : List (Request ℝ))
    (nonneg : ∀ step change threshold,
      .record step change threshold ∈ requests → 0 ≤ threshold) :
    (replay h requests).pairs = (accepted requests).rtake capacity.toNat ∧
    (replay h requests).size = min capacity.toNat (accepted requests).length ∧
    (replay h requests).changes.length = (replay h requests).size ∧
    List.Forall₂ Weighs (replay h requests).pairs (replay h requests).weights.reverse ∧
    ∀ step change threshold, 0 ≤ threshold →
      (((replay h requests).record step change threshold).2 = .ok true ↔
        ∃ product, product? step change = some product ∧ threshold < product) ∧
      (((replay h requests).record step change threshold).2 ≠ .ok true →
        ((replay h requests).record step change threshold).1 = replay h requests) := by
  have retains := replay_retains created requests
  have positive : ∀ a ∈ arrivals requests, 0 < a.product := fun a => product_pos nonneg
  refine ⟨?_, ?_, ?_, ?_, ?_⟩
  · rw [retains.pairs_eq, accepted, List.rtake, List.rtake, List.map_drop, List.length_map]
  · rw [CurvatureHistory.size, retains.steps_eq]
    simp [accepted]
  · rw [CurvatureHistory.size, retains.steps_eq, retains.changes_eq]
    simp
  · rw [retains.pairs_eq, retains.reverse_weights_eq positive, List.forall₂_map_left_iff,
      List.forall₂_map_right_iff, List.forall₂_same]
    intro a member
    have arrived := List.mem_of_mem_drop member
    obtain ⟨_, _, product_eq, _⟩ := exists_of_mem_arrivals arrived
    exact ⟨a.product, product_eq, rfl, one_div_pos.mpr (positive a arrived)⟩
  · intro step change threshold nonneg
    have outcome := records (replay h requests) step change threshold
    generalize (replay h requests).record step change threshold = left at outcome
    cases outcome with
    | mismatched none => simp [none]
    | refused product_eq isBelow => simpa [product_eq] using isBelow
    | stored product_eq isAbove => simpa [product_eq] using isAbove
    | broken product_eq isAbove zero =>
      rw [Scalar.isZero_real, decide_eq_true_eq] at zero
      exact absurd (zero ▸ isAbove) nonneg.not_gt

theorem replay_keeps_newest_two :
    let h : MixedHistory ℝ := ⟨2, [], [], []⟩
    let requests : List (Request ℝ) :=
      [.record ⟨1, #v[1]⟩ ⟨1, #v[1]⟩ 0, .clear, .record ⟨1, #v[1]⟩ ⟨1, #v[2]⟩ 0,
        .record ⟨1, #v[1]⟩ ⟨1, #v[3]⟩ 5, .record ⟨2, #v[1, 0]⟩ ⟨2, #v[3, 1]⟩ 2,
        .record ⟨1, #v[2]⟩ ⟨1, #v[4]⟩ 0]
    create 2 = .ok h ∧
    (∀ step change threshold, .record step change threshold ∈ requests → 0 ≤ threshold) ∧
    (replay h requests).pairs =
      [(⟨2, #v[1, 0]⟩, ⟨2, #v[3, 1]⟩), (⟨1, #v[2]⟩, ⟨1, #v[4]⟩)] ∧
    (replay h requests).size = 2 := by
  intro h requests
  have created : create 2 = .ok h := by simp [create, greatestCapacity, h]
  have nonneg : ∀ step change threshold,
      .record step change threshold ∈ requests → 0 ≤ threshold := by
    intro step change threshold asked
    simp only [requests, List.mem_cons, Request.record.injEq, reduceCtorEq, List.not_mem_nil,
      or_false, false_or] at asked
    rcases asked with ⟨-, -, rfl⟩ | ⟨-, -, rfl⟩ | ⟨-, -, rfl⟩ | ⟨-, -, rfl⟩ | ⟨-, -, rfl⟩ <;>
      norm_num
  have accepted_eq : accepted requests =
      [(⟨1, #v[1]⟩, ⟨1, #v[2]⟩), (⟨2, #v[1, 0]⟩, ⟨2, #v[3, 1]⟩), (⟨1, #v[2]⟩, ⟨1, #v[4]⟩)] := by
    have first : dot (#v[1] : Vector ℝ 1) #v[2] = 2 := by norm_num [dot_eq_sum]
    have second : dot (#v[1] : Vector ℝ 1) #v[3] = 3 := by norm_num [dot_eq_sum]
    have third : dot (#v[1, 0] : Vector ℝ 2) #v[3, 1] = 3 := by norm_num [dot_eq_sum]
    have fourth : dot (#v[2] : Vector ℝ 1) #v[4] = 8 := by norm_num [dot_eq_sum]
    norm_num [accepted, arrivals, requests, List.rtakeWhile, List.filterMap_cons,
      Request.isClear, Request.arrival?, first, second, third, fourth]
  obtain ⟨pairs_eq, size_eq, -, -, -⟩ := replay_keeps_newest created requests nonneg
  rw [accepted_eq] at pairs_eq size_eq
  exact ⟨created, nonneg, pairs_eq, size_eq⟩

end Descent.MixedHistory
