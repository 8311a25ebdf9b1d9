import Descent.Proofs.Binary64
import Descent.Proofs.Curvature.Requests
/-!
# Pairs that are not stored whole

The weight of a pair is computed after its step and its change are stored, so that a pair whose
product is zero stays behind without one.  Only a negative threshold lets such a pair in.  From then
on the queue of weights is behind the other two, until it is full of newer weights or the history
is cleared.
-/

namespace Descent.MixedHistory

open CurvatureHistory (create)

variable {α : Type} [Scalar α]

section Lengths

variable {h : MixedHistory α} {capacity : Nat} {arrived : List (Arrival α)}

theorem Arrival.isSome_weight? (a : Arrival α) :
    a.weight?.isSome = true ↔ Scalar.isZero a.product = false := by
  cases zero : Scalar.isZero a.product <;> simp [Arrival.weight?, zero]

theorem Retains.length_changes_eq (retains : Retains h capacity arrived) :
    h.changes.length = h.steps.length := by
  simp [retains.steps_eq, retains.changes_eq]

/-- The queue of weights is as long as the others if every arrival has a weight, or if there are
enough of them to fill it. -/
theorem Retains.length_weights_eq_iff (retains : Retains h capacity arrived) :
    h.weights.length = h.steps.length ↔
      (∀ a ∈ arrived, Scalar.isZero a.product = false) ∨
        capacity ≤ (arrived.filterMap Arrival.weight?).length := by
  have steps : h.steps.length = min capacity arrived.length := by simp [retains.steps_eq]
  have weights : h.weights.length = min capacity (arrived.filterMap Arrival.weight?).length := by
    simp [retains.weights_eq]
  have fewer := List.length_filterMap_le Arrival.weight? arrived
  have all : (arrived.filterMap Arrival.weight?).length = arrived.length ↔
      ∀ a ∈ arrived, Scalar.isZero a.product = false := by
    rw [List.filterMap_length_eq_length]
    exact forall₂_congr fun a _ => a.isSome_weight?
  rw [steps, weights, ← all]
  omega

end Lengths

/-- A pair whose product is zero, if the threshold is below it, is stored without a weight. -/
theorem record_of_isZero {h : MixedHistory α} {step change : AnyVector α} {product threshold : α}
    (product_eq : product? step change = some product) (isAbove : threshold < product)
    (zero : Scalar.isZero product = true) :
    h.record step change threshold = (h.enter step change, .error .divisionByZero) := by
  have outcome := records h step change threshold
  generalize h.record step change threshold = left at outcome ⊢
  cases outcome with
  | mismatched none => cases none.symm.trans product_eq
  | refused product_eq' isBelow =>
      cases product_eq'.symm.trans product_eq
      exact absurd isAbove isBelow
  | stored product_eq' _ nonzero =>
      cases product_eq'.symm.trans product_eq
      cases nonzero.symm.trans zero
  | broken => rfl

section Binary64

theorem record_eq_error {h : MixedHistory Float} {step change : AnyVector Float}
    {threshold : Float} {e : Error Float} (failed : (h.record step change threshold).2 = .error e) :
    (e = .shapeMismatch ∧ (h.record step change threshold).1 = h) ∨
      (e = .divisionByZero ∧ threshold < 0 ∧
        (∃ product, product? step change = some product ∧ Scalar.isZero product = true) ∧
        (h.record step change threshold).1 = h.enter step change) := by
  have outcome := records h step change threshold
  generalize h.record step change threshold = left at outcome failed
  cases outcome with
  | mismatched => exact .inl ⟨(Except.error.inj failed).symm, rfl⟩
  | refused => cases failed
  | stored => cases failed
  | broken product_eq isAbove zero =>
      exact .inr ⟨(Except.error.inj failed).symm, Binary64.neg_of_lt_of_isZero zero isAbove,
        ⟨_, product_eq, zero⟩, rfl⟩

/-- Whatever was asked of a history, a pair that fails changes it only if a negative threshold let
it in and its product is zero; and the three queues have one length exactly if no such pair came
in since the last clearing or enough others did to fill the queue of weights. -/
theorem record_changes_only_on_zero {capacity : Int} {h : MixedHistory Float}
    (created : create capacity = .ok h) (requests : List (Request Float)) :
    (∀ step change threshold e,
      ((replay h requests).record step change threshold).2 = .error e →
      (e = .shapeMismatch ∧
        ((replay h requests).record step change threshold).1 = replay h requests) ∨
      (e = .divisionByZero ∧ threshold < 0 ∧
        (∃ product, product? step change = some product ∧ Scalar.isZero product = true) ∧
        ((replay h requests).record step change threshold).1 =
          (replay h requests).enter step change)) ∧
    (replay h requests).changes.length = (replay h requests).steps.length ∧
    ((replay h requests).weights.length = (replay h requests).steps.length ↔
      (∀ a ∈ arrivals requests, Scalar.isZero a.product = false) ∨
        capacity.toNat ≤ ((arrivals requests).filterMap Arrival.weight?).length) ∧
    ((∀ step change threshold, .record step change threshold ∈ requests → ¬ threshold < 0) →
      (replay h requests).weights.length = (replay h requests).steps.length) := by
  have retains := replay_retains created requests
  refine ⟨fun _ _ _ _ => record_eq_error, retains.length_changes_eq,
    retains.length_weights_eq_iff, fun nonneg => retains.length_weights_eq_iff.mpr (.inl ?_)⟩
  intro a arrived
  obtain ⟨threshold, asked, -, above⟩ := exists_of_mem_arrivals arrived
  rw [Bool.eq_false_iff]
  exact fun zero => nonneg _ _ _ asked (Binary64.neg_of_lt_of_isZero zero above)

def brokenRequests : List (Request Float) :=
  [.record ⟨1, #v[1]⟩ ⟨1, #v[1]⟩ 0, .record ⟨1, #v[1]⟩ ⟨1, #v[0]⟩ (-1)]

theorem record_changes_only_on_zero_broken :
    let h : MixedHistory Float := ⟨2, [], [], []⟩
    create 2 = .ok h ∧
    (replay h brokenRequests).changes.length = (replay h brokenRequests).steps.length ∧
    (replay h brokenRequests).weights.length ≠ (replay h brokenRequests).steps.length := by
  intro h
  have created : create 2 = .ok h := rfl
  obtain ⟨-, changes, weights, -⟩ := record_changes_only_on_zero created brokenRequests
  refine ⟨created, changes, fun level => ?_⟩
  rcases weights.mp level with nonzero | enough
  · exact absurd nonzero (by decide +kernel)
  · exact absurd enough (by decide +kernel)

/-- The first pair of a history fails, but its step and its change stay. -/
theorem record_breaks_off :
    let h : MixedHistory Float := ⟨2, [], [], []⟩
    let left := h.record ⟨1, #v[1]⟩ ⟨1, #v[0]⟩ (-1)
    create 2 = .ok h ∧ left.2 = .error .divisionByZero ∧ left.1 ≠ h ∧
    left.1.steps.length = 1 ∧ left.1.changes.length = 1 ∧ left.1.weights.length = 0 := by
  intro h left
  have broken : left = (h.enter ⟨1, #v[1]⟩ ⟨1, #v[0]⟩, .error .divisionByZero) :=
    record_of_isZero (product?_mk _ _) (by decide +kernel) (by decide +kernel)
  refine ⟨rfl, ?_, ?_, ?_, ?_, ?_⟩ <;> rw [broken]
  · rintro same
    have := congrArg (fun h => h.steps.length) same
    cases this
  · rfl
  · rfl
  · rfl

end Binary64

end Descent.MixedHistory
