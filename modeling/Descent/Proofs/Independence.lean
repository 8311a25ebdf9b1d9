import Descent.Proofs.Lbfgs.Provenance
import Descent.Proofs.TrustRegion.Course
import Descent.Proofs.Current
/-!
# Independent calls

An optimizer forgets its earlier runs before it begins another one, and it checks what it is asked
for before it forgets anything.  Whatever calls were made on it before, and however they ended, a
call that is valid comes to what it comes to on a new optimizer, and one that is not leaves the
optimizer as it was.
-/

namespace Descent

open RunM

section Requests

variable {α : Type} [Scalar α] {n : Nat}

/-- A start for a function of `n` variables: one axis with as many entries as the function has
dimensions, all of them finite. -/
structure IsValidStart (n : Nat) (dimension : Dimension) (start : Tensor α) : Prop where
  shape_eq : start.shape = [n]
  isCount : dimension.isCount n = true
  finite : ∀ a ∈ start.entries.toList, Scalar.isFinite a = true

structure IsValidRequest (n : Nat) (dimension : Dimension) (budget : Option Int)
    (start : Tensor α) : Prop extends IsValidStart n dimension start where
  budget_pos : ∀ k ∈ budget, 0 < k

/-- A start is accepted exactly if it is valid; one that is not is a setting out of range. -/
theorem checkStart_cases (dimension : Dimension) (start : Tensor α) :
    (IsValidStart n dimension start ∧ ∃ x : Vector α n, checkStart dimension start = .ok x) ∨
    (¬ IsValidStart n dimension start ∧
      ∃ fault, (checkStart dimension start : Except (Error α) (Vector α n)) =
        .error (.setting fault)) := by
  obtain ⟨shape, entries⟩ := start
  rcases shape with _ | ⟨k, _ | ⟨l, rest⟩⟩
  · refine .inr ⟨fun valid => ?_, _, rfl⟩
    cases valid.shape_eq
  · have flat : Tensor.toFlat? ⟨[k], entries⟩ = some entries.toArray := rfl
    have size_eq : entries.toArray.size = k := by simp [Tensor.volume_singleton]
    unfold checkStart checkIterate
    rw [flat]
    by_cases counted : dimension.isCount entries.toArray.size = true
    · by_cases finite : entries.toArray.all Scalar.isFinite = true
      · simp only [counted, finite, Bool.not_true, Bool.false_eq_true, if_false, if_true, bind,
          Except.bind, Tensor.vector?]
        by_cases length : entries.toArray.size = n
        · rw [dif_pos length]
          refine .inl ⟨⟨congrArg ([·]) (size_eq.symm.trans length), length ▸ counted, ?_⟩, _, rfl⟩
          intro a mem
          exact Array.all_eq_true'.mp finite a (by simpa using mem)
        · rw [dif_neg length]
          refine .inr ⟨fun valid => length ?_, _, rfl⟩
          exact size_eq.trans (List.head_eq_of_cons_eq valid.shape_eq)
      · simp only [counted, finite, Bool.not_true, Bool.false_eq_true, if_false, bind, Except.bind]
        refine .inr ⟨fun valid => finite (Array.all_eq_true'.mpr fun a mem => ?_), _, rfl⟩
        exact valid.finite a (by simpa using mem)
    · simp only [counted, Bool.not_false, if_true, bind, Except.bind]
      refine .inr ⟨fun valid => counted ?_, _, rfl⟩
      rw [size_eq, List.head_eq_of_cons_eq valid.shape_eq]
      exact valid.isCount
  · refine .inr ⟨fun valid => ?_, _, rfl⟩
    cases valid.shape_eq

theorem checkRequest_cases (dimension : Dimension) (cap : Int) (budget : Option Int)
    (start : Tensor α) :
    (IsValidRequest n dimension budget start ∧
      ∃ (x : Vector α n) (limit : Nat), checkRequest dimension cap budget start = .ok (x, limit)) ∨
    (¬ IsValidRequest n dimension budget start ∧
      ∃ fault, (checkRequest dimension cap budget start : Except (Error α) (Vector α n × Nat)) =
        .error (.setting fault)) := by
  unfold checkRequest
  rcases checkStart_cases dimension start with ⟨valid, x, accepted⟩ | ⟨invalid, fault, refused⟩
  · rw [accepted]
    cases budget with
    | none => exact .inl ⟨⟨valid, by simp⟩, x, cap.toNat, rfl⟩
    | some k =>
        by_cases used : k ≤ 0
        · have resolved : (resolveBudget (some k) cap : Except (Error α) Int) =
              .error (.setting .iterationBudget) := if_pos used
          rw [resolved]
          refine .inr ⟨fun valid => ?_, _, rfl⟩
          have positive := valid.budget_pos k rfl
          omega
        · have resolved : (resolveBudget (some k) cap : Except (Error α) Int) = .ok k := if_neg used
          rw [resolved]
          refine .inl ⟨⟨valid, fun k' mem => ?_⟩, x, k.toNat, rfl⟩
          cases mem
          omega
  · rw [refused]
    exact .inr ⟨fun valid => invalid valid.toIsValidStart, fault, rfl⟩

end Requests

section Calls

variable {σ α : Type} {n : Nat}

/-- The state in which earlier calls leave an optimizer, each with its start and its options and
however it ended. -/
def stateAfter (optimize : σ → Tensor α → RunOptions → Id (Call σ α n)) (created : σ)
    (earlier : List (Tensor α × RunOptions)) : σ :=
  earlier.foldl (fun s request => (Id.run (optimize s request.1 request.2)).state) created

variable [Scalar α]

/-- A call on an optimizer in state `used` beside the same call on a new optimizer. -/
structure StartsAfresh (dimension : Dimension)
    (optimize : σ → Tensor α → RunOptions → Id (Call σ α n)) (created used : σ) (start : Tensor α)
    (options : RunOptions) : Prop where
  of_valid : IsValidRequest n dimension options.budget start →
    Id.run (optimize used start options) = Id.run (optimize created start options)
  of_invalid : ¬ IsValidRequest n dimension options.budget start →
    ∃ fault, Id.run (optimize used start options) = ⟨.error (.setting fault), used, none, #[]⟩

theorem Call.make_startsAfresh {dimension : Dimension} {cap : Int} {created used : σ}
    {start : Tensor α} {options : RunOptions}
    (run : RunOptions → Nat → Vector α n → RunM Id σ α n (RunResult α n))
    (afresh : ∀ limit x, outcome (run options limit x) ⟨used, x, #[], #[]⟩ =
      outcome (run options limit x) ⟨created, x, #[], #[]⟩) :
    StartsAfresh dimension (fun s start options => Call.make dimension cap options s start
      (run options)) created used start options := by
  rcases checkRequest_cases (n := n) dimension cap options.budget start with
    ⟨valid, x, limit, accepted⟩ | ⟨invalid, fault, refused⟩
  · refine ⟨fun _ => ?_, fun invalid => absurd valid invalid⟩
    rw [Call.make_of_ok accepted, Call.make_of_ok accepted, afresh]
  · exact ⟨fun valid => absurd valid invalid, fun _ => ⟨fault, Call.make_of_error refused _⟩⟩

end Calls

section Optimizers

variable {α : Type} [Scalar α] {n : Nat} {options : RunOptions}

namespace Lbfgs

/-- What a run departs with depends on no earlier run but for the room in its history. -/
theorem run_afresh (f : Objective Id α n) (c : Config α) (off : options.isDebug = false)
    {created used : State α n} (capacity_eq : used.history.capacity = created.history.capacity)
    (limit : Nat) (x : Vector α n) :
    outcome (run f c options limit x) ⟨used, x, #[], #[]⟩ =
      outcome (run f c options limit x) ⟨created, x, #[], #[]⟩ := by
  have prepared : outcome (prepare f options x) ⟨used, x, #[], #[]⟩ =
      outcome (prepare f options x) ⟨created, x, #[], #[]⟩ := by
    have cleared : used.history.clear = created.history.clear := by
      rw [CurvatureHistory.clear, CurvatureHistory.clear, capacity_eq]
    unfold prepare
    rw [off, outcome_bind_of_ok (outcome_update _), outcome_bind_of_ok (outcome_update _)]
    simp only [cleared]
    rfl
  unfold run depart
  rw [bind_assoc, outcome_bind, prepared, ← outcome_bind]

theorem stateAfter_capacity (f : Objective Id α n) (c : Config α) (dimension : Dimension)
    (created : State α n) (earlier : List (Tensor α × RunOptions)) :
    (stateAfter (optimize f c dimension) created earlier).history.capacity =
      created.history.capacity := by
  unfold stateAfter
  induction earlier generalizing created with
  | nil => rfl
  | cons request rest ih =>
      rw [List.foldl_cons, ih]
      exact optimize_capacity f c request.2 dimension created request.1

end Lbfgs

namespace TrustRegion

theorem run_afresh (f : Objective Id α n) (c : Config α) (off : options.isDebug = false)
    (created used : State α) (limit : Nat) (x : Vector α n) :
    outcome (run f c options limit x) ⟨used, x, #[], #[]⟩ =
      outcome (run f c options limit x) ⟨created, x, #[], #[]⟩ := by
  have prepared : outcome (prepare f c options x) ⟨used, x, #[], #[]⟩ =
      outcome (prepare f c options x) ⟨created, x, #[], #[]⟩ := by
    unfold prepare
    rw [off]
    rfl
  unfold run depart
  rw [bind_assoc, outcome_bind, prepared, ← outcome_bind]

end TrustRegion

/-- Whatever calls were made on an optimizer before, a further call with debug mode off comes to
what it comes to on a new optimizer, or it is refused and leaves the optimizer as it was. -/
theorem optimize_independent (f : Objective Id α n) (dimension : Dimension)
    (earlier : List (Tensor α × RunOptions)) (start : Tensor α) (options : RunOptions)
    (off : options.isDebug = false) :
    (∀ (c : Lbfgs.Config α) (created : Lbfgs.State α n), Lbfgs.State.create c = .ok created →
      StartsAfresh dimension (Lbfgs.optimize f c dimension) created
        (stateAfter (Lbfgs.optimize f c dimension) created earlier) start options) ∧
    ∀ c : TrustRegion.Config α,
      StartsAfresh dimension (TrustRegion.optimize f c dimension) (.create c)
        (stateAfter (TrustRegion.optimize f c dimension) (.create c) earlier) start options := by
  constructor
  · intro c created _
    exact Call.make_startsAfresh (Lbfgs.run f c)
      (Lbfgs.run_afresh f c off (Lbfgs.stateAfter_capacity f c dimension created earlier))
  · intro c
    exact Call.make_startsAfresh (TrustRegion.run f c) (TrustRegion.run_afresh f c off _ _)

end Optimizers

section Square

def earlierCalls : List (Tensor Float × RunOptions) :=
  [(.ofVector #v[3.0], {}), (.ofVector #v[5.0], { budget := some 1 }), (.ofVector #v[1.0, 2.0], {})]

theorem optimize_independent_square :
    ({} : RunOptions).isDebug = false ∧ ({ budget := some 0 } : RunOptions).isDebug = false ∧
    IsValidRequest (α := Float) 1 (.whole 1) none (.ofVector #v[1.0]) ∧
    ¬ IsValidRequest (α := Float) 1 (.whole 1) (some 0) (.ofVector #v[1.0]) ∧
    (∃ created, Lbfgs.State.create (n := 1) (.defaults : Lbfgs.Config Float) = .ok created ∧
      ∃ used, used = stateAfter (Lbfgs.optimize Square.objective .defaults (.whole 1)) created
          earlierCalls ∧
        Id.run (Lbfgs.optimize Square.objective .defaults (.whole 1) used (.ofVector #v[1.0]) {}) =
          Id.run (Lbfgs.optimize Square.objective .defaults (.whole 1) created
            (.ofVector #v[1.0]) {}) ∧
        ∃ fault, Id.run (Lbfgs.optimize Square.objective .defaults (.whole 1) used
          (.ofVector #v[1.0]) { budget := some 0 }) =
            ⟨.error (.setting fault), used, none, #[]⟩) ∧
    ∃ created used, created = TrustRegion.State.create (.defaults : TrustRegion.Config Float) ∧
      used = stateAfter (TrustRegion.optimize Square.objective .defaults (.whole 1)) created
        earlierCalls ∧
      Id.run (TrustRegion.optimize Square.objective .defaults (.whole 1) used
          (.ofVector #v[1.0]) {}) =
        Id.run (TrustRegion.optimize Square.objective .defaults (.whole 1) created
          (.ofVector #v[1.0]) {}) ∧
      ∃ fault, Id.run (TrustRegion.optimize Square.objective .defaults (.whole 1) used
        (.ofVector #v[1.0]) { budget := some 0 }) = ⟨.error (.setting fault), used, none, #[]⟩ := by
  have valid : IsValidRequest (α := Float) 1 (.whole 1) none (.ofVector #v[1.0]) :=
    ⟨⟨rfl, rfl, by decide +kernel⟩, by simp⟩
  have invalid : ¬ IsValidRequest (α := Float) 1 (.whole 1) (some 0) (.ofVector #v[1.0]) :=
    fun valid => absurd (valid.budget_pos 0 rfl) (by omega)
  obtain ⟨lines, region⟩ := optimize_independent Square.objective (.whole 1) earlierCalls
    (.ofVector #v[1.0]) {} rfl
  obtain ⟨lines', region'⟩ := optimize_independent Square.objective (.whole 1) earlierCalls
    (.ofVector #v[1.0]) { budget := some 0 } rfl
  refine ⟨rfl, rfl, valid, invalid, ⟨_, rfl, _, rfl, ?_, ?_⟩, _, _, rfl, rfl, ?_, ?_⟩
  · exact (lines .defaults _ rfl).of_valid valid
  · exact (lines' .defaults _ rfl).of_invalid invalid
  · exact (region .defaults).of_valid valid
  · exact (region' .defaults).of_invalid invalid

end Square

end Descent
