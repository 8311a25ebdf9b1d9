import Mathlib.Data.List.DropRight
import Descent.Curvature.Mixed
/-!
# Requests to a history

What a history holds after any requests, whatever its numbers are and whether or not its pairs
have one length.  The queues of steps and changes hold the newest pairs that arrived since the
last clearing, and the queue of weights the newest weights: a pair whose product has no
reciprocal arrives without one.
-/

namespace Descent.MixedHistory

open CurvatureHistory (create enqueue)

variable {α : Type} [Scalar α]

inductive Request (α : Type) where
  | record (step change : AnyVector α) (threshold : α)
  | clear

namespace Request

def isClear : Request α → Bool
  | record .. => false
  | clear => true

/-- The history that a request leaves, also one that is refused or fails. -/
def perform (h : MixedHistory α) : Request α → MixedHistory α
  | record step change threshold => (h.record step change threshold).1
  | clear => h.clear

end Request

def replay (h : MixedHistory α) (requests : List (Request α)) : MixedHistory α :=
  requests.foldl Request.perform h

def product? (step change : AnyVector α) : Option α := (castTo? step.1 change).map (dot step.2)

@[simp] theorem product?_mk {n : Nat} (step change : Vector α n) :
    product? ⟨n, step⟩ ⟨n, change⟩ = some (dot step change) := by
  simp [product?, castTo?, Tensor.vector?]

section Outcomes

def enter (h : MixedHistory α) (step change : AnyVector α) : MixedHistory α :=
  { h with
    steps := enqueue h.capacity step h.steps
    changes := enqueue h.capacity change h.changes }

/-- All that storing a pair can do: what it leaves and what it answers. -/
inductive Records (h : MixedHistory α) (step change : AnyVector α) (threshold : α) :
    MixedHistory α × Except (Error α) Bool → Prop
  | mismatched : product? step change = none →
      Records h step change threshold (h, .error .shapeMismatch)
  | refused {product : α} : product? step change = some product → ¬ threshold < product →
      Records h step change threshold (h, .ok false)
  | stored {product : α} : product? step change = some product → threshold < product →
      Scalar.isZero product = false →
      Records h step change threshold
        ({ h.enter step change with weights := enqueue h.capacity (1 / product) h.weights },
          .ok true)
  | broken {product : α} : product? step change = some product → threshold < product →
      Scalar.isZero product = true →
      Records h step change threshold (h.enter step change, .error .divisionByZero)

theorem records (h : MixedHistory α) (step change : AnyVector α) (threshold : α) :
    Records h step change threshold (h.record step change threshold) := by
  unfold record
  cases same : castTo? step.1 change with
  | none => exact .mismatched (by rw [product?, same]; rfl)
  | some change' =>
      have product_eq : product? step change = some (dot step.2 change') := by
        rw [product?, same]
        rfl
      by_cases isAbove : threshold < dot step.2 change'
      · dsimp only [CurvatureHistory.push]
        rw [if_pos isAbove]
        cases zero : Scalar.isZero (dot step.2 change') with
        | false =>
            rw [quotient_of_ne zero]
            exact .stored product_eq isAbove zero
        | true =>
            rw [quotient_zero zero]
            exact .broken product_eq isAbove zero
      · dsimp only
        rw [CurvatureHistory.push_of_not_lt isAbove]
        exact .refused product_eq isAbove

end Outcomes

section Arrivals

structure Arrival (α : Type) where
  step : AnyVector α
  change : AnyVector α
  product : α

/-- The weight of a pair; there is none if the product is zero. -/
def Arrival.weight? (a : Arrival α) : Option α :=
  if Scalar.isZero a.product then none else some (1 / a.product)

def Request.arrival? : Request α → Option (Arrival α)
  | record step change threshold =>
    (product? step change).bind fun product =>
      if threshold < product then some ⟨step, change, product⟩ else none
  | clear => none

theorem Request.arrival?_of_lt {step change : AnyVector α} {product threshold : α}
    (product_eq : product? step change = some product) (isAbove : threshold < product) :
    (record step change threshold).arrival? = some ⟨step, change, product⟩ := by
  simp [arrival?, product_eq, isAbove]

/-- The pairs let in since the last clearing, in the order of their arrival. -/
def arrivals (requests : List (Request α)) : List (Arrival α) :=
  (requests.rtakeWhile fun request => !request.isClear).filterMap Request.arrival?

variable (requests : List (Request α))

theorem arrivals_concat_clear : arrivals (requests ++ [.clear]) = [] := by
  simp [arrivals, Request.isClear]

theorem arrivals_concat_record (step change : AnyVector α) (threshold : α) :
    arrivals (requests ++ [.record step change threshold]) =
      arrivals requests ++ (Request.record step change threshold).arrival?.toList := by
  rw [arrivals, List.rtakeWhile_concat_pos _ _ _ rfl, List.filterMap_append]
  rfl

variable {requests}

theorem exists_of_mem_arrivals {a : Arrival α} (arrived : a ∈ arrivals requests) :
    ∃ threshold, .record a.step a.change threshold ∈ requests ∧
      product? a.step a.change = some a.product ∧ threshold < a.product := by
  obtain ⟨request, recent, arrival⟩ := List.mem_filterMap.mp arrived
  have asked := (List.rtakeWhile_suffix _ _).mem recent
  cases request with
  | clear => cases arrival
  | record step change threshold =>
      obtain ⟨product, product_eq, isAbove⟩ := Option.bind_eq_some_iff.mp arrival
      split_ifs at isAbove with above
      cases isAbove
      exact ⟨threshold, asked, product_eq, above⟩

end Arrivals

/-- A history whose queues hold the newest of the pairs, and of the weights, that arrived. -/
structure Retains (h : MixedHistory α) (capacity : Nat) (arrived : List (Arrival α)) : Prop where
  capacity_eq : h.capacity = capacity
  steps_eq : h.steps = (arrived.map Arrival.step).reverse.take capacity
  changes_eq : h.changes = (arrived.map Arrival.change).reverse.take capacity
  weights_eq : h.weights = (arrived.filterMap Arrival.weight?).reverse.take capacity

namespace Retains

variable {h : MixedHistory α} {capacity : Nat} {arrived : List (Arrival α)}

theorem clear (retains : Retains h capacity arrived) :
    Retains (CurvatureHistory.clear h) capacity [] where
  capacity_eq := retains.capacity_eq
  steps_eq := by simp [CurvatureHistory.clear]
  changes_eq := by simp [CurvatureHistory.clear]
  weights_eq := by simp [CurvatureHistory.clear]

theorem arrive (retains : Retains h capacity arrived) (a : Arrival α) {weights : List α}
    (weights_eq : weights = (a.weight?.toList ++ (arrived.filterMap Arrival.weight?).reverse).take
      capacity) :
    Retains { h.enter a.step a.change with weights := weights } capacity (arrived ++ [a]) where
  capacity_eq := retains.capacity_eq
  steps_eq := by
    simp [enter, retains.capacity_eq, retains.steps_eq, CurvatureHistory.enqueue_take]
  changes_eq := by
    simp [enter, retains.capacity_eq, retains.changes_eq, CurvatureHistory.enqueue_take]
  weights_eq := by
    rw [weights_eq, List.filterMap_append, List.reverse_append]
    cases weight : a.weight? <;> simp [weight]

theorem record (retains : Retains h capacity arrived) (step change : AnyVector α) (threshold : α) :
    Retains (h.record step change threshold).1 capacity
      (arrived ++ (Request.record step change threshold).arrival?.toList) := by
  have outcome := records h step change threshold
  generalize MixedHistory.record h step change threshold = left at outcome
  cases outcome with
  | mismatched none => simpa [Request.arrival?, none] using retains
  | refused product_eq isBelow => simpa [Request.arrival?, product_eq, isBelow] using retains
  | @stored product product_eq isAbove nonzero =>
      have weight : (⟨step, change, product⟩ : Arrival α).weight? = some (1 / product) := by
        simp [Arrival.weight?, nonzero]
      rw [Request.arrival?_of_lt product_eq isAbove]
      refine retains.arrive ⟨step, change, product⟩ ?_
      rw [weight, retains.capacity_eq, retains.weights_eq, CurvatureHistory.enqueue_take]
      rfl
  | @broken product product_eq isAbove zero =>
      have weight : (⟨step, change, product⟩ : Arrival α).weight? = none := by
        simp [Arrival.weight?, zero]
      rw [Request.arrival?_of_lt product_eq isAbove]
      refine retains.arrive ⟨step, change, product⟩ ?_
      rw [weight]
      exact retains.weights_eq

theorem pairs_eq (retains : Retains h capacity arrived) :
    h.pairs = (arrived.rtake capacity).map fun a => (a.step, a.change) := by
  rw [CurvatureHistory.pairs, retains.steps_eq, retains.changes_eq,
    List.rtake_eq_reverse_take_reverse, ← List.map_reverse, ← List.map_reverse, ← List.map_take,
    ← List.map_take, List.zip_map', List.map_reverse]

end Retains

/-- Whatever was asked, the queues hold what arrived since the last clearing. -/
theorem replay_retains {capacity : Int} {h : MixedHistory α} (created : create capacity = .ok h)
    (requests : List (Request α)) :
    Retains (replay h requests) capacity.toNat (arrivals requests) := by
  induction requests using List.reverseRecOn with
  | nil =>
      unfold create at created
      split_ifs at created
      cases created
      exact ⟨rfl, by simp [replay, arrivals], by simp [replay, arrivals],
        by simp [replay, arrivals]⟩
  | append_singleton requests request ih =>
      rw [replay, List.foldl_concat]
      cases request with
      | record step change threshold =>
          rw [arrivals_concat_record]
          exact ih.record step change threshold
      | clear =>
          rw [arrivals_concat_clear]
          exact ih.clear

end Descent.MixedHistory
