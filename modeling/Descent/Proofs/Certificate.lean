import Descent.Proofs.Lbfgs.Directions
import Descent.Proofs.TrustRegion.Radius
/-!
# What the status of a result certifies

In exact arithmetic the status that a run ends with tells how far the run came, whether the
gradient is small at the final iterate, and what stopped it there.
-/

namespace Descent

open RunM

variable {n : Nat} {options : RunOptions}

/-- What a result certifies in either optimizer: a converged run stopped with a small gradient
before its budget was used, and one that was cut off had used all of it. -/
structure RunResult.Certified (threshold : ℝ) (limit : Nat) (status : Status)
    (result : RunResult ℝ n) : Prop where
  iterations_le : result.iterations ≤ limit
  status_eq : status = result.status
  converged : result.status = .converged →
    result.gradientNorm ≤ threshold ∧ result.iterations < limit
  exhausted : result.status = .iterationLimit → result.iterations = limit

namespace Lbfgs

variable {f : Objective Id ℝ n} {c : Config ℝ} {limit : Nat} {x : Vector ℝ n} {s : State ℝ n}
  {call : Call (State ℝ n) ℝ n} {result : RunResult ℝ n}

/-- The iteration that a run failed in: it came to the final iterate, could not leave it, and
left the history empty. -/
structure FailedAt (f : Objective Id ℝ n) (c : Config ℝ) (options : RunOptions) (limit : Nat)
    (x : Vector ℝ n) (s : State ℝ n) (call : Call (State ℝ n) ℝ n) (result : RunResult ℝ n) :
    Prop where
  steep : max c.gradientTolerance 1e-12 < result.gradientNorm
  iterations_lt : result.iterations < limit
  size_eq : call.state.history.size = 0
  pairs_eq : call.state.history.pairs = []
  stays : ∃ done r p failure r', Reaches f c options limit x s done r p ∧
    done.length = result.iterations ∧
    outcome (advance f c options p) r = (.ok (.error failure), r') ∧
    r.iterate = result.iterate ∧ r'.iterate = result.iterate ∧ call.iterate = some result.iterate

structure Certified (f : Objective Id ℝ n) (c : Config ℝ) (options : RunOptions) (limit : Nat)
    (x : Vector ℝ n) (s : State ℝ n) (call : Call (State ℝ n) ℝ n) (result : RunResult ℝ n) :
    Prop extends
    result.Certified (max c.gradientTolerance 1e-12) limit call.state.status where
  status_mem : result.status ∈ [.converged, .iterationLimit, .lineSearchFailed]
  failed : result.status = .lineSearchFailed → FailedAt f c options limit x s call result

theorem Ends.certified {done : List (Iteration ℝ n)} {r r' : Run (State ℝ n) ℝ n}
    {p : Point ℝ n} (reached : Reaches f c options limit x s done r p)
    (ends : Ends f c limit done.length r p r' result.ending)
    (tells : Tells options x done p r' call result) :
    Certified f c options limit x s call result := by
  have status_eq : result.status = result.ending.status := rfl
  have count := tells.iterations_eq
  have carries := reached.carries
  generalize result.ending = ending at ends status_eq
  cases ends with
  | exhausted used =>
      refine ⟨⟨by omega, tells.status_eq, ?_, fun _ => count.trans used⟩, ?_, ?_⟩ <;>
        simp [status_eq, Ending.status]
  | converged before converged =>
      refine ⟨⟨by omega, tells.status_eq, fun _ => ⟨?_, by omega⟩, ?_⟩, ?_, ?_⟩
      · rw [tells.gradientNorm_eq]
        exact le_of_isConverged_eq_true converged
      all_goals simp [status_eq, Ending.status]
  | @failed failure _ before notConverged chosen =>
      refine ⟨⟨by omega, tells.status_eq, ?_, ?_⟩, ?_, fun _ => ?_⟩
      · simp [status_eq, Ending.status]
      · simp [status_eq, Ending.status]
      · simp [status_eq, Ending.status]
      obtain ⟨standing_eq, chooses⟩ := chooses_of_ok chosen
      have history_eq := tells.history_eq.trans chooses.history_of_error
      have iterate_eq : result.iterate = r.iterate :=
        tells.iterate_eq.trans carries.iterate_eq.symm
      have advanced : outcome (advance f c options p) r = (.ok (.error failure), r') := by
        unfold advance
        rw [outcome_bind_of_ok chosen]
        rfl
      refine ⟨?_, by omega, ?_, ?_, ?_⟩
      · rw [tells.gradientNorm_eq]
        exact lt_of_isConverged_eq_false notConverged
      · rw [history_eq, CurvatureHistory.size_clear]
      · rw [history_eq, CurvatureHistory.pairs_clear]
      · exact ⟨done, r, p, failure, r', reached, count.symm, advanced, iterate_eq.symm,
          (congrArg Standing.iterate standing_eq).trans iterate_eq.symm,
          tells.final_eq.trans (congrArg some tells.iterate_eq.symm)⟩

end Lbfgs

namespace TrustRegion

variable {f : Objective Id ℝ n} {c : Config ℝ} {limit : Nat} {x : Vector ℝ n} {s : State ℝ}
  {call : Call (State ℝ) ℝ n} {result : RunResult ℝ n}

/-- The iteration that a run stagnated with: its step was rejected at the final iterate, and the
radius is the least one. -/
structure StagnatedAt (f : Objective Id ℝ n) (c : Config ℝ) (options : RunOptions) (limit : Nat)
    (x : Vector ℝ n) (s : State ℝ) (call : Call (State ℝ) ℝ n) (result : RunResult ℝ n) :
    Prop where
  steep : max c.gradientTolerance 1e-12 < result.gradientNorm
  radius_eq : result.radius = some c.leastRadius
  final_radius_eq : call.state.radius = c.leastRadius
  rejects : ∃ i older r p candidate, Reaches f c options limit x s (i :: older) r (.collapsed p) ∧
    (i :: older).length = result.iterations ∧
    (f.value (i.source.location + i.trial.step)).run.run = .ok candidate ∧
    ¬ c.acceptance < ratio i.source.value candidate i.trial.predictedReduction ∧
    i.source.location = result.iterate ∧ i.target.location = result.iterate

structure Certified (f : Objective Id ℝ n) (c : Config ℝ) (options : RunOptions) (limit : Nat)
    (x : Vector ℝ n) (s : State ℝ) (call : Call (State ℝ) ℝ n) (result : RunResult ℝ n) :
    Prop extends
    result.Certified (max c.gradientTolerance 1e-12) limit call.state.status where
  status_mem : result.status ∈ [.converged, .iterationLimit, .stagnation]
  stagnated : result.status = .stagnation → StagnatedAt f c options limit x s call result

theorem Concludes.certified (inRange : c.InRange) {done : List (Iteration ℝ n)}
    {r r' : Run (State ℝ) ℝ n} {progress : Progress ℝ n} {p : Point ℝ n}
    (reached : Reaches f c options limit x s done r progress)
    (concludes : Concludes f c options limit done.length r progress r' p result.ending)
    (tells : Tells f p r' call result) : Certified f c options limit x s call result := by
  obtain ⟨carries, _⟩ := reached.carries.concluded concludes
  have status_eq : result.status = result.ending.status := rfl
  have count : result.iterations = done.length := tells.iterations_eq.trans carries.iterations_eq
  have within := reached.length_le
  obtain ⟨gradient, gradient_eq, norm_eq⟩ := tells.gradientNorm_eq
  generalize result.ending = ending at concludes status_eq
  cases concludes with
  | exhausted used =>
      refine ⟨⟨by omega, tells.status_eq, ?_, fun _ => count.trans used⟩, ?_, ?_⟩ <;>
        simp [status_eq, Ending.status]
  | @converged p model _ before refreshed converged =>
      refine ⟨⟨by omega, tells.status_eq, fun _ => ⟨?_, by omega⟩, ?_⟩, ?_, ?_⟩
      · have known := (carries.isCurrent.model_current model rfl).gradient_eq
        rw [norm_eq, ← Except.ok.inj (known.symm.trans gradient_eq)]
        exact le_of_isConverged_eq_true converged
      all_goals simp [status_eq, Ending.status]
  | collapsed =>
      refine ⟨⟨by omega, tells.status_eq, ?_, ?_⟩, ?_, fun _ => ?_⟩
      · simp [status_eq, Ending.status]
      · simp [status_eq, Ending.status]
      · simp [status_eq, Ending.status]
      obtain ⟨i, older, candidate, rfl, rfl, location_eq, model_eq, candidate_eq, rejected, _⟩ :=
        reached.collapsed
      obtain ⟨_, model_current, notConverged⟩ :=
        reached.carries.source i (List.mem_cons_self ..)
      have least := reached.radius_of_collapsed inRange
      have known := model_current.gradient_eq
      rw [← location_eq] at known
      refine ⟨?_, tells.radius_eq.trans (congrArg some least), tells.final_radius_eq.trans least,
        i, older, _, _, candidate, reached, count.symm, candidate_eq, rejected, ?_, ?_⟩
      · rw [norm_eq, ← Except.ok.inj (known.symm.trans gradient_eq)]
        exact lt_of_isConverged_eq_false notConverged
      · exact location_eq.symm.trans tells.iterate_eq.symm
      · exact tells.iterate_eq.symm

end TrustRegion

/-- Every run that returns certifies what its status says. -/
theorem optimize_certifies (f : Objective Id ℝ n) (options : RunOptions) (dimension : Dimension)
    (start : Tensor ℝ) :
    (∀ (c : Lbfgs.Config ℝ) (s : Lbfgs.State ℝ n) call result,
      Id.run (Lbfgs.optimize f c dimension s start options) = call → call.result = .ok result →
      ∃ x limit, checkRequest dimension c.iterationCap options.budget start = .ok (x, limit) ∧
        Lbfgs.Certified f c options limit x s call result) ∧
    ∀ (c : TrustRegion.Config ℝ) (s : TrustRegion.State ℝ) call result, c.check = .ok () →
      Id.run (TrustRegion.optimize f c dimension s start options) = call →
      call.result = .ok result →
      ∃ x limit, checkRequest dimension c.iterationCap options.budget start = .ok (x, limit) ∧
        TrustRegion.Certified f c options limit x s call result := by
  constructor
  · intro c s call result called ok
    obtain ⟨x, limit, done, r, p, r', accepted, reached, ends, tells⟩ :=
      Lbfgs.optimize_ends called ok
    exact ⟨x, limit, accepted, ends.certified reached tells⟩
  · intro c s call result valid called ok
    obtain ⟨x, limit, done, r, progress, r', p, accepted, reached, concludes, tells⟩ :=
      TrustRegion.optimize_concludes called ok
    exact ⟨x, limit, accepted,
      concludes.certified (TrustRegion.Config.inRange valid) reached tells⟩

theorem optimize_certifies_square :
    (∃ x call result, call.result = .ok result ∧ Lbfgs.Certified Square.objective .defaults
      {} 100000 x Lbfgs.unused call result) ∧
    (TrustRegion.Config.defaults : TrustRegion.Config ℝ).check = .ok () ∧
    ∃ x call result, call.result = .ok result ∧ TrustRegion.Certified Square.objective
      .defaults {} 100000 x (.create .defaults) call result := by
  obtain ⟨lines, region⟩ :=
    optimize_certifies Square.objective {} (.whole 1) (.ofVector #v[1])
  have resolved : resolveBudget none defaultIterationCap = (.ok 100000 : Except (Error ℝ) Int) :=
    rfl
  have accepted : checkRequest (.whole 1) defaultIterationCap ({} : RunOptions).budget
      (.ofVector #v[(1 : ℝ)]) = .ok (#v[1], 100000) :=
    checkRequest_ofVector (x := #v[1]) (fun _ => rfl) resolved
  refine ⟨?_, TrustRegion.Config.defaults_check, ?_⟩
  · obtain ⟨result, ok⟩ : ∃ result, (Id.run (Lbfgs.optimize Square.objective .defaults
        (.whole 1) Lbfgs.unused (.ofVector #v[1]) {})).result = .ok result :=
      Lbfgs.exists_result (Lbfgs.Config.inRange Lbfgs.Config.defaults_valid) accepted (by simp)
    obtain ⟨x, limit, accepted', certified⟩ := lines .defaults Lbfgs.unused _ result rfl ok
    obtain ⟨rfl, rfl⟩ := Prod.mk.inj (Except.ok.inj (accepted.symm.trans accepted'))
    exact ⟨_, _, result, ok, certified⟩
  · obtain ⟨result, ok⟩ : ∃ result, (Id.run (TrustRegion.optimize Square.objective
        .defaults (.whole 1) (.create .defaults) (.ofVector #v[1]) {})).result = .ok result :=
      TrustRegion.exists_result _ _ (TrustRegion.Config.inRange TrustRegion.Config.defaults_check)
        accepted (by simp) (by simp)
    obtain ⟨x, limit, accepted', certified⟩ :=
      region .defaults (.create .defaults) _ result TrustRegion.Config.defaults_check rfl ok
    obtain ⟨rfl, rfl⟩ := Prod.mk.inj (Except.ok.inj (accepted.symm.trans accepted'))
    exact ⟨_, _, result, ok, certified⟩

end Descent
