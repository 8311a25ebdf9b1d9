import Descent.Proofs.Certificate
import Descent.Proofs.TrustRegion.Monotone
/-!
# Running out of budget

An iteration begins with the test of convergence and ends with the test of the budget, so that a
run that is cut off has not tested the point to which its last iteration led.  Where the gradient
is small there, the same call with one more iteration allowed ends at the same point as converged.
-/

namespace Descent

open RunM

theorem Ending.eq_iterationLimit {α : Type} {ending : Ending α}
    (exhausted : ending.status = .iterationLimit) : ∃ limit, ending = .iterationLimit limit := by
  cases ending with
  | iterationLimit limit => exact ⟨limit, rfl⟩
  | converged | lineSearchFailed | stagnation => cases exhausted

/-- A result that was cut off beside that of the same call with one more iteration allowed, which
has converged if the gradient was small already, and then at the same point. -/
structure RunResult.CutOff {n : Nat} (threshold : ℝ) (result longer : RunResult ℝ n) : Prop where
  converged_iff : longer.status = .converged ↔ result.gradientNorm ≤ threshold
  iterate_eq : longer.status = .converged → longer.iterate = result.iterate
  iterations_eq : longer.status = .converged → longer.iterations = result.iterations

namespace Lbfgs

variable {α : Type} [Scalar α] {n : Nat} {f : Objective Id α n} {c : Config α}
  {options : RunOptions} {limit : Nat} {p q q' : Point α n}
  {r r' r'' : Run (State α n) α n} {ending : Ending α}

theorem run_budget (budget : Option Int) (x : Vector α n) :
    run f c { options with budget := budget } limit x = run f c options limit x := by
  have loops (p : Point α n) : iterate f c { options with budget := budget } limit limit p =
      iterate f c options limit limit p := by
    apply iterate_congr
    rfl
  unfold run
  simp only [loops]
  rfl

variable (f c options) in
/-- A loop that may make more iterations than another goes on where the other has used its
budget, and does the same if the other ends before. -/
theorem iterate_add (limit limit' k extra : Nat) (p : Point α n) (r : Run (State α n) α n) :
    (∃ q r₁, outcome (iterate f c options limit k p) r = (.ok (q, .iterationLimit limit), r₁) ∧
      outcome (iterate f c options limit' (k + extra) p) r =
        outcome (iterate f c options limit' extra q) r₁) ∨
    (∀ q k' r₁, outcome (iterate f c options limit k p) r ≠ (.ok (q, .iterationLimit k'), r₁)) ∧
      outcome (iterate f c options limit' (k + extra) p) r =
        outcome (iterate f c options limit k p) r := by
  induction k generalizing p r with
  | zero => exact .inl ⟨p, r, rfl, by rw [Nat.zero_add]⟩
  | succ k ih =>
      rw [Nat.add_right_comm]
      simp only [iterate]
      by_cases converged : isConverged (norm p.gradient) c.gradientTolerance = true
      · rw [if_pos converged, if_pos converged]
        exact .inr ⟨by simp, rfl⟩
      · rw [if_neg converged, if_neg converged, outcome_bind, outcome_bind]
        rcases outcome (advance f c options p) r with ⟨e | failure | next, r₁⟩
        · exact .inr ⟨by simp, rfl⟩
        · exact .inr ⟨by simp, rfl⟩
        · exact ih next r₁

theorem iterate_one (ok : outcome (iterate f c options limit 1 q) r = (.ok (q', ending), r')) :
    (ending.status = .converged ↔ isConverged (norm q.gradient) c.gradientTolerance = true) ∧
      (ending.status = .converged → q' = q ∧ r' = r) := by
  unfold iterate at ok
  by_cases converged : isConverged (norm q.gradient) c.gradientTolerance = true
  · rw [if_pos converged] at ok
    cases ok
    simp [converged, Ending.status]
  · rw [if_neg converged] at ok
    obtain ⟨result, r₁, advanced, rest⟩ := outcome_bind_eq_ok.mp ok
    cases result with
    | error failure =>
        cases rest
        simp [converged, Ending.status]
    | ok next =>
        cases rest
        simp [converged, Ending.status]

theorem cutOff {f : Objective Id ℝ n} {c : Config ℝ} {s : State ℝ n} {dimension : Dimension}
    {start : Tensor ℝ} {x : Vector ℝ n} {result longer : RunResult ℝ n}
    (accepted : checkRequest dimension c.iterationCap options.budget start = .ok (x, limit))
    (ok : (Id.run (optimize f c dimension s start options)).result = .ok result)
    (exhausted : result.status = .iterationLimit)
    (ok' : (Id.run (optimize f c dimension s start
      { options with budget := some (limit + 1) })).result = .ok longer) :
    result.CutOff (max c.gradientTolerance 1e-12) longer := by
  obtain ⟨_, ran⟩ := Call.exists_run accepted ok
  obtain ⟨_, ran'⟩ := Call.exists_run (checkRequest_budget limit.succ_pos accepted) ok'
  rw [run_budget] at ran'
  unfold run at ran ran'
  obtain ⟨p, r, departed, rest⟩ := outcome_bind_eq_ok.mp ran
  obtain ⟨p', r', departed', rest'⟩ := outcome_bind_eq_ok.mp ran'
  obtain ⟨⟨q, ending⟩, r₁, iterated, finished⟩ := outcome_bind_eq_ok.mp rest
  obtain ⟨⟨q', ending'⟩, r₁', iterated', finished'⟩ := outcome_bind_eq_ok.mp rest'
  cases departed.symm.trans departed'
  cases finished
  cases finished'
  obtain ⟨k, rfl⟩ := Ending.eq_iterationLimit exhausted
  obtain ⟨_, _, iterated₁, more⟩ | ⟨goes, _⟩ :=
    iterate_add f c options limit (limit + 1) limit 1 p r
  case inr => exact absurd iterated (goes _ _ _)
  cases iterated.symm.trans iterated₁
  obtain ⟨converged_iff, same⟩ := iterate_one (more.symm.trans iterated')
  refine ⟨converged_iff.trans ?_, fun converged => ?_, fun converged => ?_⟩
  · rw [isConverged_real, decide_eq_true_iff]
  · rw [(same converged).1]
  · rw [(same converged).2]

end Lbfgs

namespace TrustRegion

variable {α : Type} [Scalar α] {n : Nat} {f : Objective Id α n} {c : Config α}
  {options : RunOptions} {limit : Nat} {p q q' : Point α n}
  {r r' r'' : Run (State α) α n} {ending : Ending α}

theorem run_budget (budget : Option Int) (x : Vector α n) :
    run f c { options with budget := budget } limit x = run f c options limit x := by
  have loops (p : Point α n) : iterate f c { options with budget := budget } limit limit p =
      iterate f c options limit limit p := by
    apply iterate_congr
    · rfl
    · rfl
  unfold run
  simp only [loops]
  rfl

variable (f c options) in
theorem iterate_add (limit limit' k extra : Nat) (p : Point α n) (r : Run (State α) α n) :
    (∃ q r₁, outcome (iterate f c options limit k p) r = (.ok (q, .iterationLimit limit), r₁) ∧
      outcome (iterate f c options limit' (k + extra) p) r =
        outcome (iterate f c options limit' extra q) r₁) ∨
    (∀ q k' r₁, outcome (iterate f c options limit k p) r ≠ (.ok (q, .iterationLimit k'), r₁)) ∧
      outcome (iterate f c options limit' (k + extra) p) r =
        outcome (iterate f c options limit k p) r := by
  induction k generalizing p r with
  | zero => exact .inl ⟨p, r, rfl, by rw [Nat.zero_add]⟩
  | succ k ih =>
      rw [Nat.add_right_comm]
      simp only [iterate]
      rw [outcome_bind, outcome_bind]
      rcases outcome (refresh f options p) r with ⟨e | model, r₁⟩
      · exact .inr ⟨by simp, rfl⟩
      dsimp only
      by_cases converged : isConverged (norm model.gradient) c.gradientTolerance = true
      · rw [if_pos converged, if_pos converged]
        exact .inr ⟨by simp, rfl⟩
      · rw [if_neg converged, if_neg converged, outcome_bind, outcome_bind]
        rcases outcome (advance f c options p model) r₁ with ⟨e | next | last, r₂⟩
        · exact .inr ⟨by simp, rfl⟩
        · exact ih next r₂
        · exact .inr ⟨by simp, rfl⟩

theorem iterate_one (isCurrent : q.IsCurrent f)
    (ok : outcome (iterate f c options limit 1 q) r = (.ok (q', ending), r')) :
    ∃ gradient, (f.gradient q.location).run.run = .ok gradient ∧
      (ending.status = .converged ↔ isConverged (norm gradient) c.gradientTolerance = true) ∧
      (ending.status = .converged → q'.location = q.location ∧ standing r' = standing r) := by
  unfold iterate at ok
  obtain ⟨model, r₁, refreshed, ok⟩ := outcome_bind_eq_ok.mp ok
  obtain ⟨model_current, kept⟩ := refresh_current isCurrent.model_current refreshed
  refine ⟨model.gradient, model_current.gradient_eq, ?_⟩
  by_cases converged : isConverged (norm model.gradient) c.gradientTolerance = true
  · rw [if_pos converged] at ok
    cases ok
    simp [converged, Ending.status, kept]
  · rw [if_neg converged] at ok
    obtain ⟨progress, r₂, advanced, rest⟩ := outcome_bind_eq_ok.mp ok
    cases progress with
    | collapsed last =>
        cases rest
        simp [converged, Ending.status]
    | moved next =>
        cases rest
        simp [converged, Ending.status]

theorem cutOff {f : Objective Id ℝ n} {c : Config ℝ} {s : State ℝ} {dimension : Dimension}
    {start : Tensor ℝ} {x : Vector ℝ n} {result longer : RunResult ℝ n}
    (accepted : checkRequest dimension c.iterationCap options.budget start = .ok (x, limit))
    (ok : (Id.run (optimize f c dimension s start options)).result = .ok result)
    (exhausted : result.status = .iterationLimit)
    (ok' : (Id.run (optimize f c dimension s start
      { options with budget := some (limit + 1) })).result = .ok longer) :
    result.CutOff (max c.gradientTolerance 1e-12) longer := by
  obtain ⟨_, ran⟩ := Call.exists_run accepted ok
  obtain ⟨_, ran'⟩ := Call.exists_run (checkRequest_budget limit.succ_pos accepted) ok'
  rw [run_budget] at ran'
  unfold run at ran ran'
  obtain ⟨p, r, departed, rest⟩ := outcome_bind_eq_ok.mp ran
  obtain ⟨p', r', departed', rest'⟩ := outcome_bind_eq_ok.mp ran'
  obtain ⟨⟨q, ending⟩, r₁, iterated, finished⟩ := outcome_bind_eq_ok.mp rest
  obtain ⟨⟨q', ending'⟩, r₁', iterated', finished'⟩ := outcome_bind_eq_ok.mp rest'
  cases departed.symm.trans departed'
  obtain ⟨_, _, _, reached, concludes⟩ :=
    iterate_concludes (.depart departed) (Nat.zero_add _) iterated
  obtain ⟨_, _, _, reached', concludes'⟩ :=
    iterate_concludes (.depart departed') (Nat.zero_add _) iterated'
  have isCurrent := (reached.carries.concluded concludes).1.isCurrent
  obtain ⟨rfl, tells⟩ := finish_tells isCurrent finished
  obtain ⟨rfl, tells'⟩ :=
    finish_tells (reached'.carries.concluded concludes').1.isCurrent finished'
  obtain ⟨k, ending_eq⟩ := Ending.eq_iterationLimit exhausted
  rw [ending_eq] at iterated
  obtain ⟨_, _, iterated₁, more⟩ | ⟨goes, _⟩ :=
    iterate_add f c options limit (limit + 1) limit 1 p r
  case inr => exact absurd iterated (goes _ _ _)
  cases iterated.symm.trans iterated₁
  obtain ⟨gradient, gradient_eq, converged_iff, same⟩ :=
    iterate_one isCurrent (more.symm.trans iterated')
  obtain ⟨_, gradient_eq', norm_eq⟩ := tells.gradientNorm_eq
  cases gradient_eq.symm.trans gradient_eq'
  refine ⟨converged_iff.trans ?_, fun converged => ?_, fun converged => ?_⟩
  · rw [isConverged_real, decide_eq_true_iff, norm_eq]
  · rw [tells'.iterate_eq, (same converged).1, tells.iterate_eq]
  · rw [tells'.iterations_eq, tells.iterations_eq]
    exact congrArg Standing.iterations (same converged).2

end TrustRegion

section Exhausted

variable {n : Nat}

/-- What a result that was cut off says about the points that the iterations of its run left:
the gradient was not small at any of them, so that it is not at the final iterate either unless the
last iteration led to a new point. -/
structure RunResult.Leaves (f : Objective Id ℝ n) (threshold : ℝ) (left : List (Vector ℝ n))
    (result : RunResult ℝ n) : Prop where
  length_eq : left.length = result.iterations
  steep : ∀ x ∈ left, ∃ gradient, (f.gradient x).run.run = .ok gradient ∧
    threshold < norm gradient
  steep_of_mem : result.iterate ∈ left → threshold < result.gradientNorm

theorem RunResult.leaves {f : Objective Id ℝ n} {threshold : ℝ} {left : List (Vector ℝ n)}
    {result : RunResult ℝ n} {gradient : Vector ℝ n}
    (gradient_eq : (f.gradient result.iterate).run.run = .ok gradient)
    (norm_eq : result.gradientNorm = norm gradient) (length_eq : left.length = result.iterations)
    (steep : ∀ x ∈ left, ∃ gradient, (f.gradient x).run.run = .ok gradient ∧
      threshold < norm gradient) : result.Leaves f threshold left where
  length_eq := length_eq
  steep := steep
  steep_of_mem mem := by
    obtain ⟨gradient', gradient_eq', large⟩ := steep _ mem
    cases gradient_eq.symm.trans gradient_eq'
    exact norm_eq ▸ large

/-- A run that is cut off has used its budget and left no point with a small gradient.  Only the
final iterate may have one, and it has exactly if the same call with one more iteration allowed
ends as converged, with the same iterate after as many iterations. -/
theorem optimize_exhausts (f : Objective Id ℝ n) (options : RunOptions) (dimension : Dimension)
    (start : Tensor ℝ) :
    (∀ (c : Lbfgs.Config ℝ) (s : Lbfgs.State ℝ n) result,
      (Id.run (Lbfgs.optimize f c dimension s start options)).result = .ok result →
      result.status = .iterationLimit →
      (∃ x done r p,
        checkRequest dimension c.iterationCap options.budget start = .ok (x, result.iterations) ∧
        Lbfgs.Reaches f c options result.iterations x s done r p ∧ p.location = result.iterate ∧
        result.Leaves f (max c.gradientTolerance 1e-12) (done.map (·.source.location))) ∧
      ∀ longer, (Id.run (Lbfgs.optimize f c dimension s start
        { options with budget := some (result.iterations + 1) })).result = .ok longer →
        result.CutOff (max c.gradientTolerance 1e-12) longer) ∧
    ∀ (c : TrustRegion.Config ℝ) (s : TrustRegion.State ℝ) result,
      (Id.run (TrustRegion.optimize f c dimension s start options)).result = .ok result →
      result.status = .iterationLimit →
      (∃ x done r p,
        checkRequest dimension c.iterationCap options.budget start = .ok (x, result.iterations) ∧
        TrustRegion.Reaches f c options result.iterations x s done r (.moved p) ∧
        p.location = result.iterate ∧
        result.Leaves f (max c.gradientTolerance 1e-12) (done.map (·.source.location))) ∧
      ∀ longer, (Id.run (TrustRegion.optimize f c dimension s start
        { options with budget := some (result.iterations + 1) })).result = .ok longer →
        result.CutOff (max c.gradientTolerance 1e-12) longer := by
  constructor
  · intro c s result ok exhausted
    obtain ⟨x, limit, done, r, p, r', accepted, reached, ends, tells⟩ :=
      Lbfgs.optimize_ends rfl ok
    obtain ⟨k, ending_eq⟩ := Ending.eq_iterationLimit exhausted
    rw [ending_eq] at ends
    have carries := reached.carries
    cases ends with
    | exhausted used =>
        have count : result.iterations = limit := tells.iterations_eq.trans used
        rw [count]
        refine ⟨⟨x, done, r, p, accepted, reached, tells.iterate_eq.symm,
          RunResult.leaves (tells.iterate_eq ▸ carries.isCurrent.gradient_eq)
            tells.gradientNorm_eq (by simp [tells.iterations_eq]) ?_⟩,
          fun longer => Lbfgs.cutOff accepted ok exhausted⟩
        intro y mem
        obtain ⟨i, completed, rfl⟩ := List.mem_map.mp mem
        obtain ⟨isCurrent, notConverged⟩ := carries.source i completed
        exact ⟨_, isCurrent.gradient_eq, lt_of_isConverged_eq_false notConverged⟩
  · intro c s result ok exhausted
    obtain ⟨x, limit, done, r, progress, r', p, accepted, reached, concludes, tells⟩ :=
      TrustRegion.optimize_concludes rfl ok
    obtain ⟨k, ending_eq⟩ := Ending.eq_iterationLimit exhausted
    rw [ending_eq] at concludes
    have carries := reached.carries
    obtain ⟨gradient, gradient_eq, norm_eq⟩ := tells.gradientNorm_eq
    cases concludes with
    | exhausted used =>
        have length_eq : done.length = result.iterations :=
          (tells.iterations_eq.trans carries.iterations_eq).symm
        have count : result.iterations = limit := length_eq.symm.trans used
        rw [count]
        refine ⟨⟨x, done, r, p, accepted, reached, tells.iterate_eq.symm,
          RunResult.leaves (tells.iterate_eq ▸ gradient_eq) norm_eq (by simp [length_eq]) ?_⟩,
          fun longer => TrustRegion.cutOff accepted ok exhausted⟩
        intro y mem
        obtain ⟨i, completed, rfl⟩ := List.mem_map.mp mem
        obtain ⟨_, model_current, notConverged⟩ := carries.source i completed
        exact ⟨_, model_current.gradient_eq, lt_of_isConverged_eq_false notConverged⟩

end Exhausted

section Square

theorem norm_gradient_zero : norm (Square.gradient #v[(0 : ℝ)]) = 0 := by
  rw [Square.gradient_singleton, norm_eq_norm, norm_singleton]
  simp

theorem checkRequest_square :
    checkRequest (.whole 1) defaultIterationCap ({ budget := some 1 } : RunOptions).budget
      (.ofVector #v[(1 : ℝ)]) = .ok (#v[1], 1) := by
  have resolved : resolveBudget (some 1) defaultIterationCap = (.ok 1 : Except (Error ℝ) Int) := rfl
  exact checkRequest_ofVector (x := #v[1]) (fun _ => rfl) resolved

theorem Lbfgs.exists_exhausted : ∃ result,
    (Id.run (optimize Square.objective .defaults (.whole 1) unused (.ofVector #v[(1 : ℝ)])
      { budget := some 1 })).result = .ok result ∧
    result.status = .iterationLimit ∧ result.gradientNorm = 0 := by
  let r₀ : Run (State ℝ 1) ℝ 1 := ⟨⟨.running, 0, 1, 1, ⟨10, [], [], []⟩⟩, #v[1], #[], #[]⟩
  have departed : outcome (depart Square.objective { budget := some 1 } #v[1])
      ⟨unused, #v[1], #[], #[]⟩ = (.ok (.at Square.value Square.gradient #v[1]), r₀) := rfl
  obtain ⟨r₁, chosen, _⟩ := chooseMove_square le_rfl (by norm_num) r₀ rfl
  obtain ⟨y, r₂, followed⟩ := follow_completes Square.value Square.gradient "square"
    Square.hessian { budget := some 1 } (Config.inRange Config.defaults_valid)
    ⟨1, #v[-1]⟩ #v[1] r₁
  obtain rfl : y = #v[0] := by
    have location_eq : y = #v[1] + (1 : ℝ) * #v[(-1 : ℝ)] :=
      congrArg Point.location (follow_eq_ok followed).1
    rw [location_eq, along_left, sub_self]
  have iterated : outcome (iterate Square.objective .defaults { budget := some 1 } 1 1
      (.at Square.value Square.gradient #v[1])) r₀ =
      (.ok (.at Square.value Square.gradient #v[0], .iterationLimit 1), r₂) := by
    unfold iterate advance
    rw [if_neg (ne_true_of_eq_false (notConverged_square le_rfl)), bind_assoc,
      outcome_bind_of_ok chosen]
    dsimp only
    rw [bind_assoc, outcome_bind_of_ok followed]
    rfl
  have requested : checkRequest (.whole 1) (Config.defaults : Config ℝ).iterationCap
      ({ budget := some 1 } : RunOptions).budget (.ofVector #v[(1 : ℝ)]) = .ok (#v[1], 1) :=
    checkRequest_square
  unfold optimize
  rw [Call.make_result requested]
  unfold run
  rw [outcome_bind_of_ok departed, outcome_bind_of_ok iterated]
  exact ⟨_, rfl, rfl, norm_gradient_zero⟩

theorem TrustRegion.exists_exhausted : ∃ result,
    (Id.run (optimize Square.objective .defaults (.whole 1) (.create .defaults)
      (.ofVector #v[(1 : ℝ)]) { budget := some 1 })).result = .ok result ∧
    result.status = .iterationLimit ∧ result.gradientNorm = 0 := by
  obtain ⟨r, departed, first, _⟩ := depart_eq "square" Square.value Square.gradient
    Square.hessian .defaults { budget := some 1 }
    (r := ⟨.create .defaults, #v[(1 : ℝ)], #[], #[]⟩) (x := #v[1]) (by simp)
  have unknown : ∀ model ∈ (⟨#v[1], Square.value #v[1], none⟩ : Point ℝ 1).model,
      model = .at Square.gradient Square.hessian #v[1] := by
    simp
  obtain ⟨r₁, refreshed, same, _⟩ :=
    refresh_eq "square" Square.value { budget := some 1 } (r := r) unknown (by simp)
  obtain ⟨onBoundary, solution⟩ := solve_square
  have solved : Subproblem.solve (Config.defaults : Config ℝ).method (Square.gradient #v[1])
      (Square.hessian #v[1]) r₁.state.radius = .ok ⟨#v[-1], 1, onBoundary⟩ := by
    have radius_eq : r₁.state.radius = 1 := by
      rw [same, first]
      norm_num [Config.defaults]
    rw [Square.gradient_singleton, Square.hessian, radius_eq, one_add_one_eq_two]
    exact solution
  obtain ⟨r₂, advanced, _⟩ := advance_eq "square" Square.value Square.gradient
    Square.hessian { budget := some 1 } (p := ⟨#v[1], Square.value #v[1], none⟩)
    (.at Square.gradient Square.hessian #v[1]) solved
  have location_eq : #v[(1 : ℝ)] + #v[-1] = #v[0] := by
    have along := Lbfgs.along_left 1 1
    rwa [sub_self, hmul_eq_smul, one_smul] at along
  have ratio_eq : trialRatio Square.value ⟨#v[(1 : ℝ)], Square.value #v[1], none⟩
      ⟨#v[-1], 1, onBoundary⟩ = 1 := by
    norm_num [trialRatio, ratio, location_eq, Square.value, dot_eq_sum]
  have accepted : (Config.defaults : Config ℝ).acceptance < 1 := by
    norm_num [Config.defaults]
  rw [ratio_eq, if_pos accepted, location_eq] at advanced
  have iterated : outcome (iterate Square.objective .defaults { budget := some 1 } 1 1
      ⟨#v[1], Square.value #v[1], none⟩) r =
      (.ok (⟨#v[0], Square.value #v[0], none⟩, .iterationLimit 1), r₂) := by
    have notConverged : isConverged
        (norm (Model.at Square.gradient Square.hessian #v[(1 : ℝ)]).gradient)
        (Config.defaults : Config ℝ).gradientTolerance = false :=
      Lbfgs.notConverged_square le_rfl
    unfold iterate
    rw [outcome_bind_of_ok refreshed, if_neg (ne_true_of_eq_false notConverged),
      outcome_bind_of_ok advanced]
    rfl
  have requested : checkRequest (.whole 1) (Config.defaults : Config ℝ).iterationCap
      ({ budget := some 1 } : RunOptions).budget (.ofVector #v[(1 : ℝ)]) = .ok (#v[1], 1) :=
    checkRequest_square
  unfold optimize
  rw [Call.make_result requested]
  unfold run
  rw [outcome_bind_of_ok departed, outcome_bind_of_ok iterated]
  exact ⟨_, rfl, rfl, norm_gradient_zero⟩

theorem optimize_exhausts_square :
    (∃ result longer, (Id.run (Lbfgs.optimize Square.objective .defaults (.whole 1) Lbfgs.unused
        (.ofVector #v[(1 : ℝ)]) { budget := some 1 })).result = .ok result ∧
      (Id.run (Lbfgs.optimize Square.objective .defaults (.whole 1) Lbfgs.unused
        (.ofVector #v[(1 : ℝ)]) { budget := some (result.iterations + 1) })).result = .ok longer ∧
      result.status = .iterationLimit ∧ longer.status = .converged ∧
      longer.iterate = result.iterate) ∧
    ∃ result longer, (Id.run (TrustRegion.optimize Square.objective .defaults (.whole 1)
        (.create .defaults) (.ofVector #v[(1 : ℝ)]) { budget := some 1 })).result = .ok result ∧
      (Id.run (TrustRegion.optimize Square.objective .defaults (.whole 1)
        (.create .defaults) (.ofVector #v[(1 : ℝ)])
        { budget := some (result.iterations + 1) })).result = .ok longer ∧
      result.status = .iterationLimit ∧ longer.status = .converged ∧
      longer.iterate = result.iterate := by
  have small : (0 : ℝ) ≤ max defaultGradientTolerance 1e-12 := by
    norm_num
  obtain ⟨lines, region⟩ := optimize_exhausts Square.objective { budget := some 1 } (.whole 1)
    (.ofVector #v[(1 : ℝ)])
  constructor
  · obtain ⟨result, ok, exhausted, norm_eq⟩ := Lbfgs.exists_exhausted
    obtain ⟨⟨x, done, r, p, accepted, _⟩, longer_cutOff⟩ := lines _ _ result ok exhausted
    obtain ⟨longer, ok'⟩ : ∃ longer, (Id.run (Lbfgs.optimize Square.objective .defaults (.whole 1)
        Lbfgs.unused (.ofVector #v[(1 : ℝ)])
        { budget := some (result.iterations + 1) })).result = .ok longer :=
      Lbfgs.exists_result (Lbfgs.Config.inRange Lbfgs.Config.defaults_valid)
        (checkRequest_budget result.iterations.succ_pos accepted) (by simp)
    have cutOff := longer_cutOff longer ok'
    have converged := cutOff.converged_iff.mpr (norm_eq ▸ small)
    exact ⟨result, longer, ok, ok', exhausted, converged, cutOff.iterate_eq converged⟩
  · obtain ⟨result, ok, exhausted, norm_eq⟩ := TrustRegion.exists_exhausted
    obtain ⟨⟨x, done, r, p, accepted, _⟩, longer_cutOff⟩ := region _ _ result ok exhausted
    obtain ⟨longer, ok'⟩ : ∃ longer, (Id.run (TrustRegion.optimize Square.objective .defaults
        (.whole 1) (.create .defaults) (.ofVector #v[(1 : ℝ)])
        { budget := some (result.iterations + 1) })).result = .ok longer :=
      TrustRegion.exists_result _ _ (TrustRegion.Config.inRange TrustRegion.Config.defaults_check)
        (checkRequest_budget result.iterations.succ_pos accepted) (by simp) (by simp)
    have cutOff := longer_cutOff longer ok'
    have converged := cutOff.converged_iff.mpr (norm_eq ▸ small)
    exact ⟨result, longer, ok, ok', exhausted, converged, cutOff.iterate_eq converged⟩

/-- With a budget of one iteration both optimizers reach the minimum of the square of a number and
report that they ran out of budget, though the gradient is zero there. -/
theorem optimize_exhausts_at_minimum :
    (Lbfgs.Config.defaults : Lbfgs.Config ℝ).check = .ok () ∧
    (TrustRegion.Config.defaults : TrustRegion.Config ℝ).check = .ok () ∧
    (∃ result, (Id.run (Lbfgs.optimize Square.objective .defaults (.whole 1) Lbfgs.unused
        (.ofVector #v[(1 : ℝ)]) { budget := some 1 })).result = .ok result ∧
      result.status = .iterationLimit ∧
      ¬ max defaultGradientTolerance 1e-12 < result.gradientNorm) ∧
    ∃ result, (Id.run (TrustRegion.optimize Square.objective .defaults (.whole 1)
        (.create .defaults) (.ofVector #v[(1 : ℝ)]) { budget := some 1 })).result = .ok result ∧
      result.status = .iterationLimit ∧
      ¬ max defaultGradientTolerance 1e-12 < result.gradientNorm := by
  have tolerance_pos : ¬ max defaultGradientTolerance 1e-12 < (0 : ℝ) := by
    norm_num
  obtain ⟨result, ok, exhausted, norm_eq⟩ := Lbfgs.exists_exhausted
  obtain ⟨result', ok', exhausted', norm_eq'⟩ := TrustRegion.exists_exhausted
  refine ⟨Lbfgs.Config.defaults_valid, TrustRegion.Config.defaults_check,
    ⟨result, ok, exhausted, ?_⟩, ⟨result', ok', exhausted', ?_⟩⟩
  · rw [norm_eq]
    exact tolerance_pos
  · rw [norm_eq']
    exact tolerance_pos

end Square

end Descent
