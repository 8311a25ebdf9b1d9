import Descent.Proofs.TrustRegion.Convergence
import Descent.Proofs.TrustRegion.Reaches
import Descent.Proofs.Subproblem.Feasible
/-!
# Runs that do not stagnate

Above the threshold only a radius that is not safe shrinks.  So no radius of a run is below
both the first one and what a safe one shrinks to, and a run whose least radius is safe does
not stagnate.  The function need not be bounded below.
-/

namespace Descent.TrustRegion

open RunM

variable {n : Nat} {name : String} {value : Vector ℝ n → ℝ} {gradient : Vector ℝ n → Vector ℝ n}
  {hessian : Vector ℝ n → SquareMatrix ℝ n} {L β : ℝ} {c : Config ℝ} {options : RunOptions}

section Iterations

variable {bound radius radius' ratio : ℝ} {onBoundary : Bool} {p : Point ℝ n}
  {trial : TrialStep ℝ n} {progress : Progress ℝ n}

noncomputable def Config.floor (c : Config ℝ) (bound : ℝ) : ℝ :=
  min c.initialRadius (c.shrinkFactor * c.safeRadius bound)

theorem floor_le_nextRadius (inRange : c.InRange)
    (within : radius ∈ Set.Icc c.leastRadius c.greatestRadius) (floor_le : c.floor bound ≤ radius)
    (large : ratio < c.shrinkThreshold → c.safeRadius bound < radius) :
    c.floor bound ≤ nextRadius c radius ratio onBoundary := by
  by_cases low : ratio < c.shrinkThreshold
  · rw [nextRadius_of_lt low]
    calc c.floor bound
        ≤ c.shrinkFactor * c.safeRadius bound := min_le_right _ _
      _ ≤ c.shrinkFactor * radius :=
          mul_le_mul_of_nonneg_left (large low).le inRange.shrinkFactor_pos.le
      _ ≤ max (c.shrinkFactor * radius) c.leastRadius := le_max_left _ _
  · exact floor_le.trans (le_nextRadius inRange within low)

theorem Completes.safeRadius_lt (smooth : Smooth value gradient hessian L β) (inRange : c.InRange)
    (completes : Completes value gradient hessian c p radius trial progress radius')
    (radius_pos : 0 < radius) (low : trialRatio value p trial < c.shrinkThreshold) :
    c.safeRadius (L + β) < radius := by
  have steep : c.threshold < ‖gradient p.location‖ := by
    by_contra flat
    have converged := completes.notConverged
    rw [isConverged_eq_true (not_lt.mp flat)] at converged
    cases converged
  obtain ⟨trial', solved, promises⟩ := exists_promises smooth inRange radius_pos steep
  rw [completes.solved] at solved
  cases solved
  exact promises.safeRadius_lt smooth inRange completes.isOf.value_eq low

/-- A run whose radius is in range and not below the floor; it has collapsed only if the least
radius is not safe. -/
structure Steady (c : Config ℝ) (bound radius : ℝ) (progress : Progress ℝ n) : Prop where
  radius_mem : radius ∈ Set.Icc c.leastRadius c.greatestRadius
  floor_le : c.floor bound ≤ radius
  safeRadius_lt_of_collapsed : ∀ p, progress = .collapsed p → c.safeRadius bound < c.leastRadius

theorem Steady.completed (smooth : Smooth value gradient hessian L β) (inRange : c.InRange)
    (steady : Steady c (L + β) radius (.moved p))
    (completes : Completes value gradient hessian c p radius trial progress radius') :
    Steady c (L + β) radius' progress := by
  have radius_pos : 0 < radius := inRange.least_pos.trans_le steady.radius_mem.1
  have large := completes.safeRadius_lt smooth inRange radius_pos
  rw [completes.radius_eq]
  refine ⟨nextRadius_mem inRange steady.radius_mem,
    floor_le_nextRadius inRange steady.radius_mem steady.floor_le large, ?_⟩
  intro q collapsed
  rw [completes.progress_eq] at collapsed
  split_ifs at collapsed with accepted least
  -- A rejected step has a low ratio, so the radius it was found within is not safe.
  have low : trialRatio value p trial < c.shrinkThreshold :=
    (not_lt.mp accepted).trans_lt inRange.acceptance_lt
  exact (large low).trans_le least

end Iterations

section Runs

variable {limit : Nat} {x : Vector ℝ n} {s : State ℝ} {done : List (Iteration ℝ n)}
  {progress : Progress ℝ n} {r : Run (State ℝ) ℝ n}

theorem Reaches.steady (smooth : Smooth value gradient hessian L β) (inRange : c.InRange)
    (reached : Reaches (.ofFunctions name value gradient hessian) c options limit x s done r
      progress) :
    Steady c (L + β) r.state.radius progress := by
  refine reached.invariant (motive := fun _ radius progress => Steady c (L + β) radius progress)
    ?_ fun steady completes => steady.completed smooth inRange completes
  exact ⟨⟨inRange.least_le_initial, inRange.initial_le_greatest⟩, min_le_left _ _, by simp⟩

end Runs

section Answers

variable {p : Point ℝ n} {r : Run (State ℝ) ℝ n} {x : Vector ℝ n} {limit : Nat}

variable (name value) in
/-- In exact arithmetic the loop fails only if debug mode finds a Hessian that is not
symmetric. -/
theorem exists_iterate (inRange : c.InRange)
    (symmetric : options.isDebug = true →
      ∀ x, (hessian x).requireSymmetric SquareMatrix.symmetryTolerance = .ok ())
    (limit remaining : Nat) (known : ∀ model ∈ p.model, model = .at gradient hessian p.location)
    (within : r.state.radius ∈ Set.Icc c.leastRadius c.greatestRadius) :
    ∃ q ending r',
      outcome (iterate (.ofFunctions name value gradient hessian) c options limit remaining p) r =
        (.ok (q, ending), r') := by
  induction remaining generalizing p r with
  | zero => exact ⟨_, _, _, rfl⟩
  | succ remaining ih =>
      obtain ⟨r₁, refreshed, radius_eq, _⟩ := refresh_eq name value options (r := r) known
        fun debug => symmetric debug p.location
      unfold iterate
      rw [outcome_bind_of_ok refreshed]
      by_cases converged : isConverged (norm (Model.at gradient hessian p.location).gradient)
          c.gradientTolerance = true
      · rw [if_pos converged]
        exact ⟨_, _, _, rfl⟩
      · rw [← radius_eq] at within
        obtain ⟨trial, solved, _⟩ := Subproblem.exists_solve (inRange.least_pos.trans_le within.1)
          c.method (gradient p.location) (hessian p.location)
        obtain ⟨r₂, advanced, counted, _⟩ := advance_eq name value gradient hessian options
          (p := p) (.at gradient hessian p.location) solved
        have within₂ : r₂.state.radius ∈ Set.Icc c.leastRadius c.greatestRadius := by
          rw [counted.radius]
          exact nextRadius_mem inRange within
        rw [if_neg converged, outcome_bind_of_ok advanced]
        split_ifs
        · exact ih (by simp) within₂
        · exact ⟨_, _, _, rfl⟩
        · exact ih (by simp) within₂

variable (name value) in
theorem exists_result (inRange : c.InRange) {dimension : Dimension} {start : Tensor ℝ} {s : State ℝ}
    (accepted : checkRequest dimension c.iterationCap options.budget start = .ok (x, limit))
    (symmetric : options.isDebug = true →
      ∀ x, (hessian x).requireSymmetric SquareMatrix.symmetryTolerance = .ok ())
    (consistent : options.isDebug = true →
      Id.run ((Objective.ofFunctions name value gradient hessian).requireConsistent x
        Objective.defaultTolerance).run = .ok ()) :
    ∃ result, (Id.run (optimize (.ofFunctions name value gradient hessian) c dimension s start
      options)).result = .ok result := by
  obtain ⟨r, departed, radius_eq, _⟩ := depart_eq name value gradient hessian c options
    (r := ⟨s, x, #[], #[]⟩) consistent
  have within : r.state.radius ∈ Set.Icc c.leastRadius c.greatestRadius :=
    radius_eq ▸ ⟨inRange.least_le_initial, inRange.initial_le_greatest⟩
  obtain ⟨q, ending, r', ran⟩ := exists_iterate name value inRange symmetric limit limit
    (p := ⟨x, value x, none⟩) (by simp) within
  obtain ⟨result, r'', finished, _⟩ :=
    finish_eq name value gradient hessian (r := r') (q := q) ending
  refine ⟨result, ?_⟩
  unfold optimize
  rw [Call.make_result accepted]
  unfold run
  rw [outcome_bind_of_ok departed, outcome_bind_of_ok ran, finished]

end Answers

section Runs

variable {limit : Nat} {x : Vector ℝ n}

/-- A run of a smooth function keeps its radius above a positive bound, and it does not stagnate
if the least radius is small enough.  It has a result, unless debug mode finds the gradient to
be inconsistent. -/
theorem optimize_never_stagnates (smooth : Smooth value gradient hessian L β)
    (valid : c.check = .ok ()) (name : String) (options : RunOptions) (dimension : Dimension)
    (start : Tensor ℝ) (s : State ℝ)
    (accepted : checkRequest dimension c.iterationCap options.budget start = .ok (x, limit)) :
    (∀ done r progress,
      Reaches (.ofFunctions name value gradient hessian) c options limit x s done r progress →
      min c.initialRadius (c.shrinkFactor *
        ((1 - c.shrinkThreshold) * max c.gradientTolerance 1e-12 / (L + β))) ≤ r.state.radius) ∧
    (∀ result, (Id.run (optimize (.ofFunctions name value gradient hessian) c dimension s start
        options)).result = .ok result →
      (∃ done r progress,
        Reaches (.ofFunctions name value gradient hessian) c options limit x s done r progress ∧
        result.iterations = done.length ∧ result.radius = some r.state.radius) ∧
      (c.leastRadius ≤ (1 - c.shrinkThreshold) * max c.gradientTolerance 1e-12 / (L + β) →
        result.status ≠ .stagnation)) ∧
    ((options.isDebug = true → 0 < n ∧
        Id.run ((Objective.ofFunctions name value gradient hessian).requireConsistent x
          Objective.defaultTolerance).run = .ok ()) →
      ∃ result, (Id.run (optimize (.ofFunctions name value gradient hessian) c dimension s start
        options)).result = .ok result) := by
  have inRange := Config.inRange valid
  refine ⟨?_, ?_, ?_⟩
  · intro done r progress reached
    exact (reached.steady smooth inRange).floor_le
  · intro result ok
    obtain ⟨done, r, progress, reached, ends, _, _, radius_eq, iterations_eq, _⟩ :=
      optimize_reaches accepted ok
    refine ⟨⟨done, r, progress, reached, iterations_eq, radius_eq⟩, ?_⟩
    intro least_safe stagnation
    have steady := reached.steady smooth inRange
    rw [RunResult.status] at stagnation
    generalize result.ending = ending at ends stagnation
    cases ends with
    | exhausted | converged => cases stagnation
    | collapsed => exact not_lt.mpr least_safe (steady.safeRadius_lt_of_collapsed _ rfl)
  · intro checks
    refine exists_result name value inRange accepted ?_ fun debug => (checks debug).2
    intro debug y
    exact SquareMatrix.requireSymmetric_eq_ok (checks debug).1 (smooth.symmetric y)
      (by norm_num [SquareMatrix.symmetryTolerance])

theorem optimize_never_stagnates_square :
    ∃ result, (Id.run (optimize Square.objective .defaults (.whole 1) (.create .defaults)
        (.ofVector #v[(1 : ℝ)]) {})).result = .ok result ∧
      result.status ≠ .stagnation := by
  have resolved : resolveBudget none (Config.defaults : Config ℝ).iterationCap =
      (.ok 100000 : Except (Error ℝ) Int) := rfl
  have accepted : checkRequest (.whole 1) (Config.defaults : Config ℝ).iterationCap none
      (.ofVector #v[(1 : ℝ)]) = .ok (#v[1], 100000) :=
    checkRequest_ofVector (x := #v[1]) (fun _ => rfl) resolved
  obtain ⟨_, keeps, answers⟩ := optimize_never_stagnates tame_square.smooth Config.defaults_check
    "square" {} (.whole 1) (.ofVector #v[1]) (.create .defaults) accepted
  obtain ⟨result, ok⟩ := answers (by simp)
  exact ⟨result, ok, (keeps result ok).2 (by norm_num [Config.defaults, defaultGradientTolerance])⟩

end Runs

end Descent.TrustRegion
