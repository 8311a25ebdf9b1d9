import Descent.Proofs.Objective.Asymmetric
import Descent.Proofs.TrustRegion.Iteration
import Descent.Proofs.TrustRegion.Progress
import Descent.Proofs.Counters
/-!
# Debug mode on quadratic functions

Debug mode asks more of a quadratic function than is asked before it is accepted.  A run is refused
exactly where the gradient is not near the derivative or, within a trust region, the matrix is not
nearly symmetric; otherwise debug mode is not seen.
-/

namespace Descent

variable {n : Nat}

/-! ## Refused runs -/

section Runs

open RunM

variable {α : Type} [Scalar α] {f : Objective Id α n} {x : Vector α n} {e : Error α}

/-- Where the gradient fails its check, that is how a run ends, whatever it has updated and would
do next. -/
theorem outcome_refused {σ : Type}
    (failed : (f.requireConsistent x Objective.defaultTolerance).run.run = .error e)
    (change : σ → σ) (s : σ) (rest : RunM Id σ α n Unit) :
    outcome (do
        update change
        ask (f.requireConsistent x Objective.defaultTolerance)
        rest) ⟨s, x, #[], #[]⟩ = (.error e, ⟨change s, x, #[], #[]⟩) := by
  rw [outcome_bind_of_ok (outcome_update _)]
  exact outcome_bind_of_error (outcome_ask_of_eq failed)

theorem Lbfgs.run_refused
    (failed : (f.requireConsistent x Objective.defaultTolerance).run.run = .error e)
    (c : Config α) (options : RunOptions) (limit : Nat) (s : State α n) :
    ∃ r, outcome (run f c { options with isDebug := true } limit x) ⟨s, x, #[], #[]⟩ =
        (.error e, r) ∧ RefusesGradient f x r e :=
  ⟨_, outcome_bind_of_error (outcome_bind_of_error (outcome_refused failed _ s _)),
    failed, rfl, rfl⟩

namespace TrustRegion

theorem run_refused
    (failed : (f.requireConsistent x Objective.defaultTolerance).run.run = .error e)
    (c : Config α) (options : RunOptions) (limit : Nat) (s : State α) :
    ∃ r, outcome (run f c { options with isDebug := true } limit x) ⟨s, x, #[], #[]⟩ =
        (.error e, r) ∧ RefusesGradient f x r e :=
  ⟨_, outcome_bind_of_error (outcome_bind_of_error (outcome_refused failed _ s _)),
    failed, rfl, rfl⟩

variable {name : String} {value : Vector α n → α} {gradient : Vector α n → Vector α n}
  {hessian : Vector α n → SquareMatrix α n}

theorem run_refused_hessian
    (consistent : Id.run ((Objective.ofFunctions name value gradient hessian).requireConsistent x
      Objective.defaultTolerance).run = .ok ())
    (failed : (hessian x).requireSymmetric SquareMatrix.symmetryTolerance = .error e)
    (c : Config α) (options : RunOptions) {limit : Nat} (positive : 0 < limit) (s : State α) :
    ∃ r, outcome (run (.ofFunctions name value gradient hessian) c
          { options with isDebug := true } limit x) ⟨s, x, #[], #[]⟩ = (.error e, r) ∧
        RefusesHessian (.ofFunctions name value gradient hessian) r e := by
  obtain ⟨remaining, rfl⟩ := Nat.exists_eq_succ_of_ne_zero positive.ne'
  obtain ⟨r, departed, _⟩ := depart_eq name value gradient hessian
    { options with isDebug := true } (c := c) (r := ⟨s, x, #[], #[]⟩) fun _ => consistent
  have iterate_eq : r.iterate = x := congrArg Standing.iterate (departs_of_ok departed).2.2.2
  -- The point of departure carries no model, so that the first iteration computes and checks one.
  have refused : ∃ r', outcome (refresh (.ofFunctions name value gradient hessian)
      { options with isDebug := true } ⟨x, value x, none⟩) r = (.error e, r') ∧
      r'.iterate = r.iterate :=
    ⟨_, (outcome_bind_of_ok rfl).trans (outcome_bind_of_error (outcome_check_of_eq failed)), rfl⟩
  obtain ⟨r', refused, kept⟩ := refused
  refine ⟨r', (outcome_bind_of_ok departed).trans
    (outcome_bind_of_error (outcome_bind_of_error refused)), hessian x, ?_, failed⟩
  rw [kept, iterate_eq]
  rfl

end TrustRegion

end Runs

/-! ## Calls -/

section Calls

variable {q : Quadratic ℝ n} (options : RunOptions) {dimension : Dimension} {start : Tensor ℝ}
  {limit : Nat} {x : Vector ℝ n}

theorem Quadratic.exists_refusal (disagrees : ¬q.GradientAgrees x) :
    ∃ e, ((q.objective (m := Id)).requireConsistent x Objective.defaultTolerance).run.run =
      .error e := by
  rcases checked :
      ((q.objective (m := Id)).requireConsistent x Objective.defaultTolerance).run.run with e | ⟨⟩
  · exact ⟨e, rfl⟩
  · exact absurd (Quadratic.requireConsistent_eq_ok_iff.mp checked) disagrees

theorem Call.gradientRefused_of_outcome {σ : Type} {s : σ} {cap : Int} {r : Run σ ℝ n}
    {e : Error ℝ} {run : Nat → Vector ℝ n → RunM Id σ ℝ n (RunResult ℝ n)}
    (requested : checkRequest dimension cap options.budget start = .ok (x, limit))
    (ended : RunM.outcome (run limit x) ⟨s, x, #[], #[]⟩ = (.error e, r))
    (refuses : RefusesGradient q.objective x r e) :
    (Id.run (Call.make dimension cap options s start run)).GradientRefused q.objective x := by
  rw [Call.make_of_outcome requested ended]
  exact refuses.call (q.gradientError_objective x)

namespace Lbfgs

variable {c : Config ℝ} {s : State ℝ n}
  (requested : checkRequest dimension c.iterationCap options.budget start = .ok (x, limit))

include requested

theorem optimize_of_agrees (agrees : q.GradientAgrees x) :
    Id.run (optimize q.objective c dimension s start { options with isDebug := true }) =
      Id.run (optimize q.objective c dimension s start { options with isDebug := false }) := by
  have passes := Quadratic.requireConsistent_eq_ok_iff.mpr agrees
  rcases run_agrees q.objective c options s limit x with same | ⟨e, r, _, refuses⟩
  · exact (Call.make_of_outcome requested same).trans (Call.make_of_outcome requested rfl).symm
  · cases passes.symm.trans refuses.failed

theorem optimize_of_disagrees (disagrees : ¬q.GradientAgrees x) :
    (Id.run (optimize q.objective c dimension s start
      { options with isDebug := true })).GradientRefused q.objective x := by
  obtain ⟨e, failed⟩ := Quadratic.exists_refusal disagrees
  obtain ⟨r, ended, refuses⟩ := run_refused failed c options limit s
  exact Call.gradientRefused_of_outcome _ requested ended refuses

end Lbfgs

namespace TrustRegion

variable {c : Config ℝ} {s : State ℝ}
  (requested : checkRequest dimension c.iterationCap options.budget start = .ok (x, limit))

include requested

theorem optimize_of_agrees (agrees : q.GradientAgrees x)
    (symmetric : q.matrix.IsNearlySymmetric SquareMatrix.symmetryTolerance) :
    Id.run (optimize q.objective c dimension s start { options with isDebug := true }) =
      Id.run (optimize q.objective c dimension s start { options with isDebug := false }) := by
  have passes := Quadratic.requireConsistent_eq_ok_iff.mpr agrees
  have checked := SquareMatrix.requireSymmetric_eq_ok_iff.mpr symmetric
  rcases run_agrees q.objective c options s limit x with
    same | ⟨e, r, _, refuses | ⟨hessian, hessian_eq, failed⟩⟩
  · exact (Call.make_of_outcome requested same).trans (Call.make_of_outcome requested rfl).symm
  · cases passes.symm.trans refuses.failed
  · cases hessian_eq
    cases checked.symm.trans failed

theorem optimize_of_disagrees (disagrees : ¬q.GradientAgrees x) :
    (Id.run (optimize q.objective c dimension s start
      { options with isDebug := true })).GradientRefused q.objective x := by
  obtain ⟨e, failed⟩ := Quadratic.exists_refusal disagrees
  obtain ⟨r, ended, refuses⟩ := run_refused failed c options limit s
  exact Call.gradientRefused_of_outcome _ requested ended refuses

theorem optimize_of_asymmetric (positive : 0 < n) (capped : 1 ≤ c.iterationCap)
    (agrees : q.GradientAgrees x)
    (asymmetric : ¬q.matrix.IsNearlySymmetric SquareMatrix.symmetryTolerance) :
    (Id.run (optimize q.objective c dimension s start
      { options with isDebug := true })).HessianRefused q.objective := by
  have passes := Quadratic.requireConsistent_eq_ok_iff.mpr agrees
  rw [← SquareMatrix.requireSymmetric_eq_ok_iff] at asymmetric
  rcases checked : q.matrix.requireSymmetric SquareMatrix.symmetryTolerance with e | ⟨⟩
  · obtain ⟨r, ended, refuses⟩ := run_refused_hessian passes checked c options
      (limit_pos_of_checkRequest capped requested) s
    have called : Id.run (optimize q.objective c dimension s start
        { options with isDebug := true }) = ⟨.error e, r.state, some r.iterate, r.events⟩ :=
      Call.make_of_outcome requested ended
    rw [called]
    exact refuses.call positive
  · exact absurd checked asymmetric

end TrustRegion

variable (q dimension start)

/-- What debug mode makes of a call of the limited-memory method: nothing, where the gradient
agrees with the derivative at any start that is accepted; elsewhere the call is refused. -/
def Lbfgs.DebugCases (c : Config ℝ) (s : State ℝ n) : Prop :=
  let call (debug : Bool) := Id.run
    (optimize q.objective c dimension s start { options with isDebug := debug })
  (call true = call false ∧
      ∀ x limit, checkRequest dimension c.iterationCap options.budget start = .ok (x, limit) →
        q.GradientAgrees x) ∨
    ∃ x limit, checkRequest dimension c.iterationCap options.budget start = .ok (x, limit) ∧
      ¬q.GradientAgrees x ∧ (call true).GradientRefused q.objective x

/-- Within a trust region the matrix must also be nearly symmetric. -/
def TrustRegion.DebugCases (c : Config ℝ) (s : State ℝ) : Prop :=
  let call (debug : Bool) := Id.run
    (optimize q.objective c dimension s start { options with isDebug := debug })
  (call true = call false ∧
      ∀ x limit, checkRequest dimension c.iterationCap options.budget start = .ok (x, limit) →
        q.GradientAgrees x ∧ q.matrix.IsNearlySymmetric SquareMatrix.symmetryTolerance) ∨
    ∃ x limit, checkRequest dimension c.iterationCap options.budget start = .ok (x, limit) ∧
      (¬q.GradientAgrees x ∧ (call true).GradientRefused q.objective x ∨
        q.GradientAgrees x ∧ ¬q.matrix.IsNearlySymmetric SquareMatrix.symmetryTolerance ∧
          (call true).HessianRefused q.objective)

theorem Lbfgs.debugCases (c : Config ℝ) (s : State ℝ n) :
    DebugCases q options dimension start c s := by
  rcases requested : (checkRequest dimension c.iterationCap options.budget start :
    Except (Error ℝ) (Vector ℝ n × Nat)) with e | ⟨x, limit⟩
  · refine .inl ⟨?_, by simp [requested]⟩
    exact (Call.make_of_error requested _).trans (Call.make_of_error requested _).symm
  · by_cases agrees : q.GradientAgrees x
    · refine .inl ⟨optimize_of_agrees options requested agrees, fun _ _ same => ?_⟩
      cases requested.symm.trans same
      exact agrees
    · exact .inr ⟨x, limit, requested, agrees, optimize_of_disagrees options requested agrees⟩

theorem TrustRegion.debugCases (c : Config ℝ) (s : State ℝ) (positive : 0 < n)
    (capped : 1 ≤ c.iterationCap) : DebugCases q options dimension start c s := by
  rcases requested : (checkRequest dimension c.iterationCap options.budget start :
    Except (Error ℝ) (Vector ℝ n × Nat)) with e | ⟨x, limit⟩
  · refine .inl ⟨?_, by simp [requested]⟩
    exact (Call.make_of_error requested _).trans (Call.make_of_error requested _).symm
  · by_cases agrees : q.GradientAgrees x
    · by_cases symmetric : q.matrix.IsNearlySymmetric SquareMatrix.symmetryTolerance
      · refine .inl ⟨optimize_of_agrees options requested agrees symmetric, fun _ _ same => ?_⟩
        cases requested.symm.trans same
        exact ⟨agrees, symmetric⟩
      · exact .inr ⟨x, limit, requested, .inr ⟨agrees, symmetric,
          optimize_of_asymmetric options requested positive capped agrees symmetric⟩⟩
    · exact .inr ⟨x, limit, requested, .inl
        ⟨agrees, optimize_of_disagrees options requested agrees⟩⟩

end Calls

/-! ## Two by two -/

section Pairs

theorem SquareMatrix.hasCloseEntries_pair {a b c d : ℝ} (above : |b - c| ≤ 1e-8 + 1e-5 * |c|)
    (below : |c - b| ≤ 1e-8 + 1e-5 * |b|) : HasCloseEntries #v[#v[a, b], #v[c, d]] := by
  have diagonal (u : ℝ) : |u - u| ≤ 1e-8 + 1e-5 * |u| := by
    rw [sub_self, abs_zero]
    positivity
  intro i j
  fin_cases i <;> fin_cases j
  · exact diagonal a
  · exact above
  · exact below
  · exact diagonal d

theorem SquareMatrix.isLargest_pair {a b c d : ℝ} (nonneg : 0 ≤ a) (above : |b| ≤ a)
    (below : |c| ≤ a) (last : |d| ≤ a) :
    IsLargest #v[#v[a, b], #v[c, d]] a := by
  refine ⟨⟨(0, 0), abs_of_nonneg nonneg⟩, ?_⟩
  rintro _ ⟨⟨i, j⟩, rfl⟩
  fin_cases i <;> fin_cases j
  · exact (abs_of_nonneg nonneg).le
  · exact above
  · exact below
  · exact last

theorem Quadratic.symmetrized_pair (a b c d k : ℝ) (v : Vector ℝ 2) :
    symmetrized ⟨#v[#v[a, b], #v[c, d]], v, k⟩ =
      ⟨#v[#v[a, (b + c) / 2], #v[(b + c) / 2, d]], v, k⟩ := by
  rw [symmetrized, mk.injEq]
  refine ⟨?_, rfl, rfl⟩
  ext i hi j hj
  have half (u v : ℝ) : 0.5 * (u + v) = (u + v) / 2 := by
    norm_num
    ring
  simp only [SquareMatrix.symmetricPart, SquareMatrix.getElem_ofFn, Vector.get_eq_getElem, half]
  obtain rfl | rfl : i = 0 ∨ i = 1 := by omega
  all_goals obtain rfl | rfl : j = 0 ∨ j = 1 := by omega
  · simp
  · simp
  · simp [add_comm]
  · simp

end Pairs

/-! ## Accepted functions -/

/-- Debug mode asks of a quadratic function that its gradient agree with the derivative at the start
and, within a trust region, that its matrix be nearly symmetric.  With a symmetric matrix both hold;
of a matrix that is accepted only because its entries are close, the first holds near the origin and
the second where the diagonal dominates. -/
theorem accepted_quadratic_in_debug_mode {A b : Tensor ℝ} {constant : ℝ} {q : Quadratic ℝ n}
    (accepted : Quadratic.ofTensors A b constant = .ok ⟨n, q⟩) :
    q.matrix.HasCloseEntries ∧
    (∀ x, Id.run ((q.objective (m := Id)).requireConsistent x Objective.defaultTolerance).run =
      .ok () ↔ q.GradientAgrees x) ∧
    (q.matrix.requireSymmetric SquareMatrix.symmetryTolerance = .ok () ↔
      q.matrix.IsNearlySymmetric SquareMatrix.symmetryTolerance) ∧
    (n = 0 → q.matrix.requireSymmetric SquareMatrix.symmetryTolerance = .error .noEntries) ∧
    (q.matrix.transpose = q.matrix →
      (∀ x, q.GradientAgrees x) ∧
        (0 < n → q.matrix.IsNearlySymmetric SquareMatrix.symmetryTolerance)) ∧
    (∀ largest, q.matrix.IsLargest largest →
      (∀ x : Vector ℝ n, n * (1e-8 + 1e-5 * largest) * ‖x‖ ≤ 2e-4 → q.GradientAgrees x) ∧
        ((∀ i j : Fin n, i ≠ j → 1000 * |(q.matrix.get i).get j| ≤ largest - 1) →
          q.matrix.IsNearlySymmetric SquareMatrix.symmetryTolerance)) ∧
    ∀ (options : RunOptions) (dimension : Dimension) (start : Tensor ℝ),
      (dimension.positive : Except (Error ℝ) Nat) = .ok n →
      (∀ c s, Lbfgs.DebugCases q options dimension start c s) ∧
        ∀ (c : TrustRegion.Config ℝ) (s : TrustRegion.State ℝ), c.check = .ok () →
          TrustRegion.DebugCases q options dimension start c s := by
  have close := Quadratic.hasCloseEntries_of_ofTensors accepted
  refine ⟨close, fun _ => Quadratic.requireConsistent_eq_ok_iff,
    SquareMatrix.requireSymmetric_eq_ok_iff, ?_,
    fun symmetric => ⟨fun x => ?_, fun positive => ?_⟩,
    fun largest greatest => ⟨fun x => Quadratic.gradientAgrees_of_close greatest close,
      Quadratic.isNearlySymmetric_of_close greatest close⟩,
    fun options dimension start valid =>
      ⟨Lbfgs.debugCases q options dimension start, fun c s inRange => ?_⟩⟩
  · rintro rfl
    exact SquareMatrix.requireSymmetric_empty _ _
  · exact Quadratic.requireConsistent_eq_ok_iff.mp
      (Quadratic.requireConsistent_objective symmetric x)
  · exact SquareMatrix.isNearlySymmetric_of_symmetric positive symmetric
      (by norm_num [SquareMatrix.symmetryTolerance])
  · exact TrustRegion.debugCases q options dimension start c s (Dimension.pos_of_positive valid)
      (TrustRegion.Config.iterationCap_pos inRange)

theorem accepted_quadratic_in_debug_mode_dominated :
    let q : Quadratic ℝ 2 := ⟨#v[#v[3000, 1], #v[1.000005, 2]], #v[1, 1], 0⟩
    Quadratic.ofTensors (.ofRows q.matrix) (.ofVector q.vector) 0 = .ok ⟨2, q⟩ ∧
      q.matrix.transpose ≠ q.matrix ∧ q.matrix.IsLargest 3000 ∧
      q.GradientAgrees #v[0.001, 0] ∧
      q.matrix.IsNearlySymmetric SquareMatrix.symmetryTolerance ∧
      ∀ s, Id.run (TrustRegion.optimize q.objective .defaults (.whole 2) s
          (.ofVector #v[0.001, 0]) { isDebug := true }) =
        Id.run (TrustRegion.optimize q.objective .defaults (.whole 2) s
          (.ofVector #v[0.001, 0]) { isDebug := false }) := by
  intro q
  have accepted : Quadratic.ofTensors (.ofRows q.matrix) (.ofVector q.vector) 0 = .ok ⟨2, q⟩ :=
    Quadratic.ofTensors_ofRows _ _ (SquareMatrix.hasCloseEntries_pair
      (by norm_num [abs_of_nonneg, abs_of_neg]) (by norm_num [abs_of_nonneg, abs_of_neg]))
  have greatest : q.matrix.IsLargest 3000 :=
    SquareMatrix.isLargest_pair (by norm_num) (by norm_num) (by norm_num [abs_of_nonneg])
      (by norm_num)
  obtain ⟨-, -, -, -, -, bounds, calls⟩ := accepted_quadratic_in_debug_mode accepted
  obtain ⟨near, dominant⟩ := bounds 3000 greatest
  have agrees : q.GradientAgrees #v[0.001, 0] := by
    have bound : ‖#v[(0.001 : ℝ), 0]‖ ≤ 0.001 := by
      rw [norm_pair, Real.sqrt_le_iff]
      norm_num
    have factor : ((2 : Nat) : ℝ) * (1e-8 + 1e-5 * 3000) = 0.06000002 := by norm_num
    refine near _ ?_
    rw [factor]
    linarith
  have symmetric : q.matrix.IsNearlySymmetric SquareMatrix.symmetryTolerance := by
    refine dominant fun i j other => ?_
    fin_cases i <;> fin_cases j
    · exact absurd rfl other
    · change 1000 * |(1 : ℝ)| ≤ 3000 - 1
      norm_num
    · change 1000 * |(1.000005 : ℝ)| ≤ 3000 - 1
      norm_num [abs_of_nonneg]
    · exact absurd rfl other
  refine ⟨accepted, fun same => ?_, greatest, agrees, symmetric, fun s => ?_⟩
  · have entries : (1.000005 : ℝ) = 1 :=
      SquareMatrix.getElem_comm same (i := 1) (j := 0) (by norm_num) (by norm_num)
    norm_num at entries
  · have accepted_start : checkRequest (.whole 2) defaultIterationCap none
        (.ofVector #v[(0.001 : ℝ), 0]) = .ok (#v[0.001, 0], 100000) :=
      checkRequest_ofVector (x := #v[0.001, 0]) (fun _ => rfl) (rfl : resolveBudget none _ =
        (.ok 100000 : Except (Error ℝ) Int))
    rcases (calls {} (.whole 2) (.ofVector #v[0.001, 0]) rfl).2 .defaults s
        TrustRegion.Config.defaults_check with ⟨same, _⟩ | ⟨x, limit, requested, refused⟩
    · exact same
    · cases accepted_start.symm.trans requested
      rcases refused with ⟨disagrees, _⟩ | ⟨_, asymmetric, _⟩
      · exact absurd agrees disagrees
      · exact absurd symmetric asymmetric

/-- A matrix whose entries across the diagonal are close is accepted, and yet runs are refused: one
within a trust region for its Hessian, whatever the vector is, and with a vector for which the
derivative vanishes one of the limited-memory method for its gradient. -/
theorem accepted_quadratic_refused_in_debug_mode :
    let q (b : Vector ℝ 2) : Quadratic ℝ 2 := ⟨#v[#v[2, 1], #v[1.000005, 2]], b, 0⟩
    (∀ b, Quadratic.ofTensors (.ofRows (q b).matrix) (.ofVector b) 0 = .ok ⟨2, q b⟩ ∧
      (q b).matrix.requireSymmetric SquareMatrix.symmetryTolerance ≠ .ok () ∧
      ∀ s, (Id.run (TrustRegion.optimize (q b).objective .defaults (.whole 2) s
        (.ofVector #v[0, 0]) { isDebug := true })).HessianRefused (q b).objective) ∧
    let b : Vector ℝ 2 := #v[200, 100.00025]
    Id.run (((q b).objective (m := Id)).requireConsistent #v[100, 0]
        Objective.defaultTolerance).run ≠ .ok () ∧
      ∀ s, (Id.run (Lbfgs.optimize (q b).objective .defaults (.whole 2) s (.ofVector #v[100, 0])
        { isDebug := true })).GradientRefused (q b).objective #v[100, 0] := by
  intro q
  have requested (x : Vector ℝ 2) : checkRequest (.whole 2) defaultIterationCap none (.ofVector x) =
      .ok (x, 100000) :=
    checkRequest_ofVector (x := x) (fun _ => rfl) (rfl : resolveBudget none _ =
      (.ok 100000 : Except (Error ℝ) Int))
  refine ⟨fun b => ?_, ?_⟩
  · have accepted : Quadratic.ofTensors (.ofRows (q b).matrix) (.ofVector b) 0 = .ok ⟨2, q b⟩ :=
      Quadratic.ofTensors_ofRows _ _ (SquareMatrix.hasCloseEntries_pair
        (by norm_num [abs_of_nonneg, abs_of_neg]) (by norm_num [abs_of_nonneg, abs_of_neg]))
    have greatest : (q b).matrix.IsLargest 2 :=
      SquareMatrix.isLargest_pair (by norm_num) (by norm_num) (by norm_num [abs_of_nonneg])
        (by norm_num)
    have agrees : (q b).GradientAgrees #v[0, 0] := by
      have close := Quadratic.hasCloseEntries_of_ofTensors accepted
      refine Quadratic.gradientAgrees_of_close greatest close ?_
      have zero : ‖#v[(0 : ℝ), 0]‖ = 0 := by simp [norm_pair]
      rw [zero]
      norm_num
    have asymmetric : ¬(q b).matrix.IsNearlySymmetric SquareMatrix.symmetryTolerance := by
      rw [SquareMatrix.isNearlySymmetric_iff greatest]
      intro close
      have entries : |(1 : ℝ) - 1.000005| ≤ 1e-8 * max 1 2 := close 0 1
      norm_num [abs_of_neg] at entries
    exact ⟨accepted, mt SquareMatrix.requireSymmetric_eq_ok_iff.mp asymmetric, fun s =>
      TrustRegion.optimize_of_asymmetric {} (requested _) (by norm_num) (by decide)
        agrees asymmetric⟩
  · intro b
    have gradient_eq : (q b).gradient #v[100, 0] = #v[0, 0.00025] := by
      rw [Quadratic.gradient_pair]
      exact congrArg₂ (fun a b => #v[a, b]) (by norm_num) (by norm_num)
    have derivative_eq : (q b).symmetrized.gradient #v[100, 0] = #v[0, 0] := by
      rw [Quadratic.symmetrized_pair, Quadratic.gradient_pair]
      exact congrArg₂ (fun a b => #v[a, b]) (by norm_num) (by norm_num)
    have disagrees : ¬(q b).GradientAgrees #v[100, 0] := by
      have zero : (#v[0, 0] : Vector ℝ 2) = 0 := rfl
      have far : (0.0002 : ℝ) < ‖#v[(0 : ℝ), 0.00025]‖ := by
        rw [norm_pair, Real.lt_sqrt (by norm_num)]
        norm_num
      rw [Quadratic.gradientAgrees_iff, gradient_eq, derivative_eq, zero, sub_zero, norm_zero,
        max_eq_left zero_le_one, not_le]
      linarith
    exact ⟨mt Quadratic.requireConsistent_eq_ok_iff.mp disagrees, fun s =>
      Lbfgs.optimize_of_disagrees {} (requested _) disagrees⟩

end Descent
