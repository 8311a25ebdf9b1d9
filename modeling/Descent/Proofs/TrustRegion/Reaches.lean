import Descent.Proofs.TrustRegion.Iteration
import Descent.Proofs.TrustRegion.Course
/-!
# Runs of functions within a trust region

Where the objective consists of functions, each iteration that a run completes is determined by
them, and so are the locations that it has visited.  What a run returns is read off the point
that it has reached.
-/

namespace Descent.TrustRegion

open RunM

variable {α : Type} {n : Nat} [Scalar α] {name : String} {value : Vector α n → α}
  {gradient : Vector α n → Vector α n} {hessian : Vector α n → SquareMatrix α n} {c : Config α}
  {options : RunOptions}

def Iteration.IsAccepted (value : Vector α n → α) (c : Config α) (i : Iteration α n) : Prop :=
  c.acceptance < trialRatio value i.source i.trial

instance (i : Iteration α n) : Decidable (i.IsAccepted value c) := Scalar.decLt _ _

def record (r : Run (State α) α n) : Array (Vector α n) × Nat × α :=
  (r.path, r.state.iterations, r.state.radius)

omit [Scalar α] in
theorem radius_eq_of_record {r r' : Run (State α) α n} (same : record r = record r') :
    r.state.radius = r'.state.radius := congrArg (·.2.2) same

structure Point.IsOf (value : Vector α n → α) (gradient : Vector α n → Vector α n)
    (hessian : Vector α n → SquareMatrix α n) (p : Point α n) : Prop where
  value_eq : p.value = value p.location
  model_eq : ∀ model ∈ p.model, model = .at gradient hessian p.location

section Steps

variable {p q : Point α n} {model : Model α n} {trial : TrialStep α n} {progress : Progress α n}
  {r r₁ r' : Run (State α) α n}

omit [Scalar α] in
theorem record_of_standing (same : standing r = standing r') : record r = record r' :=
  (congrArg (fun st : Standing α n => (st.path, st.iterations, st.radius)) same :)

theorem depart_eq_ok {x : Vector α n}
    (ok : outcome (depart (.ofFunctions name value gradient hessian) c options x) r =
      (.ok p, r')) :
    p = ⟨x, value x, none⟩ ∧ record r' = (extendPath options r.path x, 0, c.initialRadius) := by
  obtain ⟨rfl, model_eq, value_eq, standing_eq⟩ := departs_of_ok ok
  have value_eq : p.value = value p.location := (Except.ok.inj value_eq).symm
  refine ⟨?_, congrArg (fun st : Standing α n => (st.path, st.iterations, st.radius)) standing_eq⟩
  rw [← model_eq, ← value_eq]

omit [Scalar α] in
theorem Model.isCurrent_iff {x : Vector α n} :
    model.IsCurrent (.ofFunctions name value gradient hessian) x ↔
      model = .at gradient hessian x := by
  constructor
  · rintro ⟨gradient_eq, hessian_eq⟩
    rw [Model.at, Except.ok.inj gradient_eq, Except.ok.inj hessian_eq]
  · rintro rfl
    exact ⟨rfl, rfl⟩

omit [Scalar α] in
theorem Point.IsCurrent.isOf
    (isCurrent : p.IsCurrent (.ofFunctions name value gradient hessian)) :
    p.IsOf value gradient hessian where
  value_eq := (Except.ok.inj isCurrent.value_eq).symm
  model_eq model stored := Model.isCurrent_iff.mp (isCurrent.model_current model stored)

theorem refresh_eq_ok (known : ∀ model ∈ p.model, model = .at gradient hessian p.location)
    (ok : outcome (refresh (.ofFunctions name value gradient hessian) options p) r =
      (.ok model, r')) :
    model = .at gradient hessian p.location ∧ record r' = record r := by
  obtain ⟨isCurrent, kept⟩ :=
    refresh_current (fun model stored => Model.isCurrent_iff.mpr (known model stored)) ok
  exact ⟨Model.isCurrent_iff.mp isCurrent, record_of_standing kept⟩

theorem advance_eq_ok
    (solved : Subproblem.solve c.method model.gradient model.hessian r.state.radius = .ok trial)
    (ok : outcome (advance (.ofFunctions name value gradient hessian) c options p model) r =
      (.ok progress, r')) :
    progress = (if c.acceptance < trialRatio value p trial then
        .moved ⟨p.location + trial.step, value (p.location + trial.step), none⟩
      else if r.state.radius ≤ c.leastRadius then .collapsed ⟨p.location, p.value, some model⟩
      else .moved ⟨p.location, p.value, some model⟩) ∧
    record r' = (if c.acceptance < trialRatio value p trial then
        extendPath options r.path (p.location + trial.step)
      else r.path, r.state.iterations + 1,
      nextRadius c r.state.radius (trialRatio value p trial) trial.onBoundary) := by
  obtain ⟨_, advanced, counted, path⟩ :=
    advance_eq name value gradient hessian options model solved
  rw [ok] at advanced
  obtain ⟨answer, rfl⟩ := Prod.mk.inj advanced
  exact ⟨Except.ok.inj answer,
    Prod.ext path (Prod.ext counted.iterations counted.radius)⟩

end Steps

section Runs

variable {limit : Nat} {x : Vector α n} {s : State α} {done : List (Iteration α n)}
  {p q : Point α n} {progress : Progress α n} {r r' : Run (State α) α n}

theorem Reaches.isOf
    (reached : Reaches (.ofFunctions name value gradient hessian) c options limit x s done r
      progress) :
    progress.point.IsOf value gradient hessian := reached.carries.isCurrent.isOf

/-- An iteration that a run completes at a point: the trial step there, where it leads and the
radius before and after it. -/
structure Completes (value : Vector α n → α) (gradient : Vector α n → Vector α n)
    (hessian : Vector α n → SquareMatrix α n) (c : Config α) (p : Point α n) (radius : α)
    (trial : TrialStep α n) (progress : Progress α n) (radius' : α) : Prop where
  isOf : p.IsOf value gradient hessian
  notConverged : isConverged (norm (gradient p.location)) c.gradientTolerance = false
  solved : Subproblem.solve c.method (gradient p.location) (hessian p.location) radius = .ok trial
  progress_eq : progress = if c.acceptance < trialRatio value p trial then
      .moved ⟨p.location + trial.step, value (p.location + trial.step), none⟩
    else if radius ≤ c.leastRadius then
      .collapsed ⟨p.location, p.value, some (.at gradient hessian p.location)⟩
    else .moved ⟨p.location, p.value, some (.at gradient hessian p.location)⟩
  radius_eq : radius' = nextRadius c radius (trialRatio value p trial) trial.onBoundary

/-- A run that is not converged completes an iteration, if the subproblem has a solution and
debug mode does not find the Hessian to be asymmetric. -/
theorem Reaches.exists_complete
    (reached : Reaches (.ofFunctions name value gradient hessian) c options limit x s done r
      (.moved p))
    (budget : done.length < limit)
    (symmetric : options.isDebug = true →
      (hessian p.location).requireSymmetric SquareMatrix.symmetryTolerance = .ok ())
    (notConverged : isConverged (norm (gradient p.location)) c.gradientTolerance = false)
    {trial : TrialStep α n}
    (solved : Subproblem.solve c.method (gradient p.location) (hessian p.location)
      r.state.radius = .ok trial) :
    ∃ progress r', Reaches (.ofFunctions name value gradient hessian) c options limit x s
      (⟨p, .at gradient hessian p.location, r.state.radius, trial, progress.point⟩ :: done) r'
      progress := by
  obtain ⟨r₁, refreshed, same, _⟩ :=
    refresh_eq name value options (r := r) reached.isOf.model_eq symmetric
  rw [← same] at solved
  obtain ⟨r₂, advanced, _⟩ := advance_eq name value gradient hessian options
    (p := p) (.at gradient hessian p.location) solved
  rw [← same]
  exact ⟨_, r₂, reached.complete budget refreshed notConverged solved advanced⟩

/-- What holds at the start of a run and is kept by every iteration holds wherever a run
comes. -/
theorem Reaches.invariant {motive : List (Iteration α n) → α → Progress α n → Prop}
    (start : motive [] c.initialRadius (.moved ⟨x, value x, none⟩))
    (step : ∀ {done radius p trial progress radius'}, motive done radius (.moved p) →
      Completes value gradient hessian c p radius trial progress radius' →
      motive (⟨p, .at gradient hessian p.location, radius, trial, progress.point⟩ :: done)
        radius' progress)
    (reached : Reaches (.ofFunctions name value gradient hessian) c options limit x s done r
      progress) :
    motive done r.state.radius progress := by
  induction reached with
  | depart departed =>
      obtain ⟨rfl, recorded⟩ := depart_eq_ok departed
      have first : _ = c.initialRadius := congrArg (·.2.2) recorded
      rw [← first] at start
      exact start
  | complete before _ refreshed notConverged solved advanced ih =>
      obtain ⟨rfl, kept⟩ := refresh_eq_ok before.isOf.model_eq refreshed
      obtain ⟨progress_eq, recorded⟩ := advance_eq_ok solved advanced
      rw [← radius_eq_of_record kept] at ih
      exact step ih ⟨before.isOf, notConverged, solved, progress_eq, congrArg (·.2.2) recorded⟩

theorem Reaches.completes {i : Iteration α n}
    (reached : Reaches (.ofFunctions name value gradient hessian) c options limit x s (i :: done) r
      progress) :
    Completes value gradient hessian c i.source i.radius i.trial progress r.state.radius := by
  cases reached with
  | complete before _ refreshed notConverged solved advanced =>
      obtain ⟨rfl, _⟩ := refresh_eq_ok before.isOf.model_eq refreshed
      obtain ⟨progress_eq, recorded⟩ := advance_eq_ok solved advanced
      exact ⟨before.isOf, notConverged, solved, progress_eq, congrArg (·.2.2) recorded⟩

theorem Reaches.of_append {f : Objective Id α n} {newer older : List (Iteration α n)}
    (reached : Reaches f c options limit x s (newer ++ older) r progress) :
    ∃ r' progress', Reaches f c options limit x s older r' progress' := by
  induction newer generalizing r progress with
  | nil => exact ⟨r, progress, reached⟩
  | cons i newer ih =>
      rw [List.cons_append] at reached
      cases reached with
      | complete before => exact ih before

/-- The locations that a run from `x` has visited, newest first.  Iterations whose steps are
not accepted add none. -/
def visited (value : Vector α n → α) (c : Config α) (x : Vector α n)
    (done : List (Iteration α n)) : List (Vector α n) :=
  (done.filter fun i => decide (i.IsAccepted value c)).map (·.target.location) ++ [x]

theorem visited_of_isAccepted {i : Iteration α n} (accepted : i.IsAccepted value c) :
    visited value c x (i :: done) = i.target.location :: visited value c x done := by
  simp [visited, accepted]

theorem visited_of_not_isAccepted {i : Iteration α n} (rejected : ¬ i.IsAccepted value c) :
    visited value c x (i :: done) = visited value c x done := by
  simp [visited, rejected]

theorem Reaches.path_eq
    (reached : Reaches (.ofFunctions name value gradient hessian) c options limit x s done r
      progress) :
    (record r).1.toList =
      if options.isTrajectory then (visited value c x done).reverse else [] := by
  induction reached with
  | depart departed =>
      rw [(depart_eq_ok departed).2, extendPath]
      split <;> rfl
  | @complete done r r₁ r₂ p model trial progress before _ refreshed _ solved advanced ih =>
      rw [← (refresh_eq_ok before.isOf.model_eq refreshed).2] at ih
      obtain ⟨rfl, recorded⟩ := advance_eq_ok solved advanced
      rw [recorded]
      -- The path and the list of visited locations both grow with accepted steps only.
      by_cases accepted : c.acceptance < trialRatio value p trial
      · simp only [if_pos accepted, Progress.point, extendPath]
        rw [visited_of_isAccepted (i := ⟨p, _, _, trial, _⟩) accepted]
        split_ifs at ih ⊢
        · rw [Array.toList_push, List.reverse_cons]
          exact congrArg (· ++ _) ih
        · exact ih
      · simp only [if_neg accepted]
        rw [visited_of_not_isAccepted (i := ⟨p, _, _, trial, _⟩) accepted]
        exact ih

inductive Ends (gradient : Vector α n → Vector α n) (c : Config α) (limit count : Nat) :
    Progress α n → Ending α → Prop
  | exhausted {p : Point α n} :
      count = limit → Ends gradient c limit count (.moved p) (.iterationLimit limit)
  | converged {p : Point α n} :
      isConverged (norm (gradient p.location)) c.gradientTolerance = true →
      Ends gradient c limit count (.moved p) .converged
  | collapsed {p : Point α n} :
      Ends gradient c limit count (.collapsed p) (.stagnation c.leastRadius)

theorem Concludes.ends {count : Nat} {ending : Ending α}
    (isOf : progress.point.IsOf value gradient hessian)
    (concludes : Concludes (.ofFunctions name value gradient hessian) c options limit count r
      progress r' q ending) : Ends gradient c limit count progress ending := by
  cases concludes with
  | exhausted used => exact .exhausted used
  | converged _ refreshed converged =>
      obtain ⟨rfl, _⟩ := refresh_eq_ok isOf.model_eq refreshed
      exact .converged converged
  | collapsed => exact .collapsed

/-- The result of a run tells where it has come: the point with its value, the radius, the
number of iterations that were completed and the locations that were visited, if they are asked
for. -/
theorem optimize_reaches {dimension : Dimension} {start : Tensor α} {result : RunResult α n}
    (accepted : checkRequest dimension c.iterationCap options.budget start = .ok (x, limit))
    (ok : (Id.run (optimize (.ofFunctions name value gradient hessian) c dimension s start
      options)).result = .ok result) :
    ∃ done r progress,
      Reaches (.ofFunctions name value gradient hessian) c options limit x s done r progress ∧
      Ends gradient c limit done.length progress result.ending ∧
      result.iterate = progress.point.location ∧ result.value = progress.point.value ∧
      result.radius = some r.state.radius ∧ result.iterations = done.length ∧
      result.trajectory =
        if options.isTrajectory then (visited value c x done).reverse else [] := by
  obtain ⟨x', limit', done, r, progress, r', p, accepted', reached, concludes, tells⟩ :=
    optimize_concludes rfl ok
  obtain ⟨rfl, rfl⟩ := Prod.mk.inj (Except.ok.inj (accepted.symm.trans accepted'))
  obtain ⟨_, path_eq, radius_eq, location_eq, value_eq⟩ := reached.carries.concluded concludes
  have count := (reached.carries.concluded concludes).1.iterations_eq
  exact ⟨done, r, progress, reached, concludes.ends reached.isOf,
    tells.iterate_eq.trans location_eq, tells.value_eq.trans value_eq,
    tells.radius_eq.trans (congrArg some radius_eq), tells.iterations_eq.trans count,
    (tells.trajectory_eq.trans (congrArg Array.toList path_eq)).trans reached.path_eq⟩

end Runs

end Descent.TrustRegion
