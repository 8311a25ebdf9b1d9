import Descent.Proofs.Run
import Descent.TrustRegion.Run
/-!
# The course of a run within a trust region

The iterations that a run has completed when it stands at a point, each with the radius it used
and the trial step it made.  Whatever the objective, and even if its operations may fail, the
point carries the value of the current iterate and either its model or none, so that nothing
stale is read; and what a run returns is read off the point that it has reached and the way it
ends there.
-/

namespace Descent.TrustRegion

open RunM

variable {α : Type} {n : Nat}

/-- A completed iteration: the point it left with the model there, the radius it used, its
trial step and the point it reached. -/
structure Iteration (α : Type) (n : Nat) where
  source : Point α n
  model : Model α n
  radius : α
  trial : TrialStep α n
  target : Point α n

def Progress.point : Progress α n → Point α n
  | moved p => p
  | collapsed p => p

@[simp] theorem Progress.point_moved (p : Point α n) : (moved p).point = p := rfl

@[simp] theorem Progress.point_collapsed (p : Point α n) : (collapsed p).point = p := rfl

structure Model.IsCurrent (f : Objective Id α n) (x : Vector α n) (model : Model α n) : Prop where
  gradient_eq : (f.gradient x).run.run = .ok model.gradient
  hessian_eq : (f.hessian x).run.run = .ok model.hessian

structure Point.IsCurrent (f : Objective Id α n) (p : Point α n) : Prop where
  value_eq : (f.value p.location).run.run = .ok p.value
  model_current : ∀ model ∈ p.model, model.IsCurrent f p.location

/-- What a run has settled so far: its iterate, the path it has recorded, the number of its
iterations, its status and its radius. -/
structure Standing (α : Type) (n : Nat) where
  iterate : Vector α n
  path : Array (Vector α n)
  iterations : Nat
  status : Status
  radius : α

def standing (r : Run (State α) α n) : Standing α n :=
  ⟨r.iterate, r.path, r.state.iterations, r.state.status, r.state.radius⟩

variable [Scalar α] {f : Objective Id α n} {c : Config α} {options : RunOptions}

/-- A run of at most `limit` iterations from `x` has completed the given iterations, newest
first, and goes on from a point or has collapsed there. -/
inductive Reaches (f : Objective Id α n) (c : Config α) (options : RunOptions) (limit : Nat)
    (x : Vector α n) (s : State α) :
    List (Iteration α n) → Run (State α) α n → Progress α n → Prop
  | depart {r : Run (State α) α n} {p : Point α n} :
      outcome (depart f c options x) ⟨s, x, #[], #[]⟩ = (.ok p, r) →
      Reaches f c options limit x s [] r (.moved p)
  | complete {done : List (Iteration α n)} {r r₁ r₂ : Run (State α) α n} {p : Point α n}
      {model : Model α n} {trial : TrialStep α n} {progress : Progress α n} :
      Reaches f c options limit x s done r (.moved p) →
      done.length < limit →
      outcome (refresh f options p) r = (.ok model, r₁) →
      isConverged (norm model.gradient) c.gradientTolerance = false →
      Subproblem.solve c.method model.gradient model.hessian r₁.state.radius = .ok trial →
      outcome (advance f c options p model) r₁ = (.ok progress, r₂) →
      Reaches f c options limit x s
        (⟨p, model, r₁.state.radius, trial, progress.point⟩ :: done) r₂ progress

section Steps

variable {p : Point α n} {model : Model α n} {trial : TrialStep α n} {progress : Progress α n}
  {r r' : Run (State α) α n} {x : Vector α n}

omit [Scalar α] in
theorem evaluate_eq_ok {value : α} (ok : outcome (evaluate f x) r = (.ok value, r')) :
    (f.value x).run.run = .ok value ∧
      r' = { r with state := { r.state with evaluations := r.state.evaluations + 1 } } := by
  unfold evaluate at ok
  obtain ⟨_, _, asked, rest⟩ := outcome_bind_eq_ok.mp ok
  obtain ⟨value_eq, rfl⟩ := outcome_ask_eq_ok asked
  cases rest
  exact ⟨value_eq, rfl⟩

omit [Scalar α] in
theorem gradientAt_eq_ok {gradient : Vector α n}
    (ok : outcome (gradientAt f x) r = (.ok gradient, r')) :
    (f.gradient x).run.run = .ok gradient ∧ standing r' = standing r := by
  unfold gradientAt at ok
  obtain ⟨_, _, asked, rest⟩ := outcome_bind_eq_ok.mp ok
  obtain ⟨gradient_eq, rfl⟩ := outcome_ask_eq_ok asked
  cases rest
  exact ⟨gradient_eq, rfl⟩

omit [Scalar α] in
theorem modelAt_eq_ok (ok : outcome (modelAt f x) r = (.ok model, r')) :
    model.IsCurrent f x ∧ standing r' = standing r := by
  unfold modelAt at ok
  obtain ⟨gradient, _, asked, ok⟩ := outcome_bind_eq_ok.mp ok
  obtain ⟨gradient_eq, rfl⟩ := outcome_ask_eq_ok asked
  obtain ⟨hessian, _, asked, rest⟩ := outcome_bind_eq_ok.mp ok
  obtain ⟨hessian_eq, rfl⟩ := outcome_ask_eq_ok asked
  cases rest
  exact ⟨⟨gradient_eq, hessian_eq⟩, rfl⟩

theorem refresh_cases (ok : outcome (refresh f options p) r = (.ok model, r')) :
    (p.model = some model ∨ model.IsCurrent f p.location) ∧ standing r' = standing r := by
  unfold refresh at ok
  cases found : p.model with
  | some stored =>
      rw [found] at ok
      cases ok
      exact ⟨.inl rfl, rfl⟩
  | none =>
      rw [found] at ok
      obtain ⟨_, _, computed, ok⟩ := outcome_bind_eq_ok.mp ok
      obtain ⟨model_current, kept⟩ := modelAt_eq_ok computed
      split at ok
      · obtain ⟨⟨⟩, _, checked, rest⟩ := outcome_bind_eq_ok.mp ok
        obtain ⟨_, rfl⟩ := outcome_check_eq_ok checked
        cases rest
        exact ⟨.inr model_current, kept⟩
      · cases ok
        exact ⟨.inr model_current, kept⟩

theorem refresh_current (known : ∀ model ∈ p.model, model.IsCurrent f p.location)
    (ok : outcome (refresh f options p) r = (.ok model, r')) :
    model.IsCurrent f p.location ∧ standing r' = standing r := by
  obtain ⟨stored | computed, kept⟩ := refresh_cases ok
  · exact ⟨known _ stored, kept⟩
  · exact ⟨computed, kept⟩

/-- What an iteration leads to whose trial step reaches a candidate value: the step is accepted,
or it is rejected, and then the run collapses if the region was a least one. -/
inductive Judges (c : Config α) (options : RunOptions) (p : Point α n) (model : Model α n)
    (trial : TrialStep α n) (candidate : α) (r r' : Run (State α) α n) : Progress α n → Prop
  | accepted :
      c.acceptance < ratio p.value candidate trial.predictedReduction →
      standing r' = ⟨p.location + trial.step, extendPath options r.path (p.location + trial.step),
        r.state.iterations + 1, r.state.status, nextRadius c r.state.radius
          (ratio p.value candidate trial.predictedReduction) trial.onBoundary⟩ →
      Judges c options p model trial candidate r r'
        (.moved ⟨p.location + trial.step, candidate, none⟩)
  | rejected :
      ¬ c.acceptance < ratio p.value candidate trial.predictedReduction →
      ¬ r.state.radius ≤ c.leastRadius →
      standing r' = ⟨r.iterate, r.path, r.state.iterations + 1, r.state.status,
        nextRadius c r.state.radius (ratio p.value candidate trial.predictedReduction)
          trial.onBoundary⟩ →
      Judges c options p model trial candidate r r' (.moved ⟨p.location, p.value, some model⟩)
  | collapsed :
      ¬ c.acceptance < ratio p.value candidate trial.predictedReduction →
      r.state.radius ≤ c.leastRadius →
      standing r' = ⟨r.iterate, r.path, r.state.iterations + 1, r.state.status,
        nextRadius c r.state.radius (ratio p.value candidate trial.predictedReduction)
          trial.onBoundary⟩ →
      Judges c options p model trial candidate r r' (.collapsed ⟨p.location, p.value, some model⟩)

/-- An iteration that succeeds has solved the subproblem and judged the candidate. -/
theorem judges_of_ok (ok : outcome (advance f c options p model) r = (.ok progress, r')) :
    ∃ trial candidate,
      Subproblem.solve c.method model.gradient model.hessian r.state.radius = .ok trial ∧
      (f.value (p.location + trial.step)).run.run = .ok candidate ∧
      Judges c options p model trial candidate r r' progress := by
  unfold advance at ok
  rw [outcome_bind_of_ok outcome_state] at ok
  obtain ⟨trial, _, checked, ok⟩ := outcome_bind_eq_ok.mp ok
  obtain ⟨solved, rfl⟩ := outcome_check_eq_ok checked
  obtain ⟨candidate, _, evaluated, ok⟩ := outcome_bind_eq_ok.mp ok
  obtain ⟨candidate_eq, rfl⟩ := evaluate_eq_ok evaluated
  refine ⟨trial, candidate, solved, candidate_eq, ?_⟩
  dsimp only at ok
  rw [outcome_bind_of_ok (outcome_update _)] at ok
  by_cases accepted : c.acceptance < ratio p.value candidate trial.predictedReduction
  · simp only [decide_eq_true accepted, if_true] at ok
    cases ok
    exact .accepted accepted rfl
  · by_cases least : r.state.radius ≤ c.leastRadius
    · simp only [decide_eq_false accepted, decide_eq_true least, Bool.false_eq_true,
        if_false] at ok
      cases ok
      exact .collapsed accepted least rfl
    · simp only [decide_eq_false accepted, decide_eq_false least, Bool.false_eq_true, if_false,
        Bool.and_false] at ok
      cases ok
      exact .rejected accepted least rfl

theorem departs_of_ok (ok : outcome (depart f c options x) r = (.ok p, r')) :
    p.location = x ∧ p.model = none ∧ (f.value x).run.run = .ok p.value ∧
      standing r' = ⟨r.iterate, extendPath options r.path x, 0, .running, c.initialRadius⟩ := by
  unfold depart at ok
  obtain ⟨⟨⟩, r₁, prepared, ok⟩ := outcome_bind_eq_ok.mp ok
  have ready : standing r₁ =
      ⟨r.iterate, extendPath options r.path x, 0, .running, c.initialRadius⟩ := by
    unfold prepare at prepared
    rw [outcome_bind_of_ok (outcome_update _)] at prepared
    dsimp only at prepared
    split at prepared
    · obtain ⟨⟨⟩, _, consistent, rest⟩ := outcome_bind_eq_ok.mp prepared
      obtain ⟨_, rfl⟩ := outcome_ask_eq_ok consistent
      cases rest
      rfl
    · cases prepared
      rfl
  obtain ⟨value, _, evaluated, rest⟩ := outcome_bind_eq_ok.mp ok
  obtain ⟨value_eq, rfl⟩ := evaluate_eq_ok evaluated
  cases rest
  exact ⟨rfl, rfl, value_eq, ready⟩

/-- Of the options an iteration reads only whether a trajectory is recorded, besides whether a new
Hessian is checked. -/
theorem advance_congr {options' : RunOptions} (same : options.isTrajectory = options'.isTrajectory)
    (p : Point α n) (model : Model α n) :
    advance f c options p model = advance f c options' p model := by
  unfold advance settle trace
  simp only [same]

theorem iterate_congr {options' : RunOptions} (same : options.isTrajectory = options'.isTrajectory)
    (checked : options.isDebug = options'.isDebug) (limit remaining : Nat) (p : Point α n) :
    iterate f c options limit remaining p = iterate f c options' limit remaining p := by
  induction remaining generalizing p with
  | zero => rfl
  | succ remaining ih =>
      unfold iterate refresh
      simp only [ih, advance_congr same, checked]

end Steps

section Runs

variable {limit : Nat} {x : Vector α n} {s : State α} {done : List (Iteration α n)}
  {p q : Point α n} {progress : Progress α n} {r r' : Run (State α) α n}

/-- What a run carries wherever it comes: the value of its current iterate and at most its model,
a path that leads there, and the number of its iterations.  Those it has completed each read the
model of the point they left, which was not converged. -/
structure Carries (f : Objective Id α n) (c : Config α) (options : RunOptions)
    (done : List (Iteration α n)) (r : Run (State α) α n) (p : Point α n) : Prop where
  isCurrent : p.IsCurrent f
  iterate_eq : r.iterate = p.location
  path_back : options.isTrajectory = true → r.path.back? = some p.location
  iterations_eq : r.state.iterations = done.length
  status_eq : r.state.status = .running
  source : ∀ i ∈ done, i.source.IsCurrent f ∧ i.model.IsCurrent f i.source.location ∧
    isConverged (norm i.model.gradient) c.gradientTolerance = false

theorem Carries.refreshed {model : Model α n} (carries : Carries f c options done r p)
    (refreshed : outcome (refresh f options p) r = (.ok model, r')) :
    Carries f c options done r' p ∧ model.IsCurrent f p.location := by
  obtain ⟨model_current, kept⟩ := refresh_current carries.isCurrent.model_current refreshed
  have iterate_eq : r'.iterate = r.iterate := congrArg Standing.iterate kept
  have path_eq : r'.path = r.path := congrArg Standing.path kept
  have iterations_eq : r'.state.iterations = r.state.iterations :=
    congrArg Standing.iterations kept
  have status_eq : r'.state.status = r.state.status := congrArg Standing.status kept
  exact ⟨⟨carries.isCurrent, iterate_eq.trans carries.iterate_eq,
    fun asked => path_eq ▸ carries.path_back asked, iterations_eq.trans carries.iterations_eq,
    status_eq.trans carries.status_eq, carries.source⟩, model_current⟩

theorem Carries.judged {model : Model α n} {trial : TrialStep α n} {candidate : α}
    (carries : Carries f c options done r p) (model_current : model.IsCurrent f p.location)
    (notConverged : isConverged (norm model.gradient) c.gradientTolerance = false)
    (candidate_eq : (f.value (p.location + trial.step)).run.run = .ok candidate)
    (judges : Judges c options p model trial candidate r r' progress) :
    Carries f c options (⟨p, model, r.state.radius, trial, progress.point⟩ :: done) r'
      progress.point := by
  have more : r.state.iterations + 1 = done.length + 1 := congrArg (· + 1) carries.iterations_eq
  have source : ∀ target, ∀ i ∈ ⟨p, model, r.state.radius, trial, target⟩ :: done,
      i.source.IsCurrent f ∧ i.model.IsCurrent f i.source.location ∧
        isConverged (norm i.model.gradient) c.gradientTolerance = false := fun target =>
    List.forall_mem_cons.mpr ⟨⟨carries.isCurrent, model_current, notConverged⟩, carries.source⟩
  -- A rejected step leaves the point where it was, now with its model.
  have stays {radius : α} (standing_eq : standing r' = ⟨r.iterate, r.path, r.state.iterations + 1,
      r.state.status, radius⟩) : Carries f c options
        (⟨p, model, r.state.radius, trial, ⟨p.location, p.value, some model⟩⟩ :: done) r'
        ⟨p.location, p.value, some model⟩ := by
    refine ⟨⟨carries.isCurrent.value_eq, ?_⟩,
      (congrArg Standing.iterate standing_eq).trans carries.iterate_eq, fun asked => ?_,
      (congrArg Standing.iterations standing_eq).trans more,
      (congrArg Standing.status standing_eq).trans carries.status_eq, source _⟩
    · rintro _ ⟨⟩
      exact model_current
    · have path_eq : r'.path = r.path := congrArg Standing.path standing_eq
      rw [path_eq, carries.path_back asked]
  cases judges with
  | accepted _ standing_eq =>
      refine ⟨⟨candidate_eq, by simp⟩, congrArg Standing.iterate standing_eq, fun asked => ?_,
        (congrArg Standing.iterations standing_eq).trans more,
        (congrArg Standing.status standing_eq).trans carries.status_eq, source _⟩
      have longer : r'.path = extendPath options r.path (p.location + trial.step) :=
        congrArg Standing.path standing_eq
      rw [longer, extendPath, if_pos asked, Array.back?_push]
      rfl
  | rejected _ _ standing_eq => exact stays standing_eq
  | collapsed _ _ standing_eq => exact stays standing_eq

theorem Reaches.carries (reached : Reaches f c options limit x s done r progress) :
    Carries f c options done r progress.point := by
  induction reached with
  | @depart r p departed =>
      obtain ⟨rfl, model_eq, value_eq, standing_eq⟩ := departs_of_ok departed
      refine ⟨⟨value_eq, by simp [model_eq]⟩, congrArg Standing.iterate standing_eq,
        fun asked => ?_,
        congrArg Standing.iterations standing_eq, congrArg Standing.status standing_eq, by simp⟩
      have path_eq : r.path = extendPath options #[] p.location :=
        congrArg Standing.path standing_eq
      rw [path_eq, extendPath, if_pos asked, Array.back?_push]
      rfl
  | complete _ _ refreshed notConverged solved advanced ih =>
      obtain ⟨carries, model_current⟩ := ih.refreshed refreshed
      obtain ⟨trial, candidate, solved', candidate_eq, judges⟩ := judges_of_ok advanced
      cases solved.symm.trans solved'
      exact carries.judged model_current notConverged candidate_eq judges

theorem Reaches.length_le (reached : Reaches f c options limit x s done r progress) :
    done.length ≤ limit := by
  cases reached with
  | depart => exact Nat.zero_le _
  | complete _ before => exact before

theorem Reaches.collapsed (reached : Reaches f c options limit x s done r (.collapsed p)) :
    ∃ i older candidate, done = i :: older ∧ i.target = p ∧ p.location = i.source.location ∧
      p.model = some i.model ∧
      (f.value (i.source.location + i.trial.step)).run.run = .ok candidate ∧
      ¬ c.acceptance < ratio i.source.value candidate i.trial.predictedReduction ∧
      i.radius ≤ c.leastRadius := by
  cases reached with
  | complete _ _ _ _ solved advanced =>
      obtain ⟨trial, candidate, solved', candidate_eq, judges⟩ := judges_of_ok advanced
      cases solved.symm.trans solved'
      cases judges with
      | collapsed rejected least =>
          exact ⟨_, _, candidate, rfl, rfl, rfl, rfl, candidate_eq, rejected, least⟩

inductive Concludes (f : Objective Id α n) (c : Config α) (options : RunOptions)
    (limit count : Nat) (r : Run (State α) α n) :
    Progress α n → Run (State α) α n → Point α n → Ending α → Prop
  | exhausted {p : Point α n} :
      count = limit →
      Concludes f c options limit count r (.moved p) r p (.iterationLimit limit)
  | converged {p : Point α n} {model : Model α n} {r' : Run (State α) α n} :
      count < limit →
      outcome (refresh f options p) r = (.ok model, r') →
      isConverged (norm model.gradient) c.gradientTolerance = true →
      Concludes f c options limit count r (.moved p) r' { p with model := some model } .converged
  | collapsed {p : Point α n} :
      Concludes f c options limit count r (.collapsed p) r p (.stagnation c.leastRadius)

theorem Carries.concluded {count : Nat} {ending : Ending α}
    (carries : Carries f c options done r progress.point)
    (concludes : Concludes f c options limit count r progress r' q ending) :
    Carries f c options done r' q ∧ r'.path = r.path ∧ r'.state.radius = r.state.radius ∧
      q.location = progress.point.location ∧ q.value = progress.point.value := by
  cases concludes with
  | exhausted => exact ⟨carries, rfl, rfl, rfl, rfl⟩
  | @converged p model r' before refreshed converged =>
      have standing_eq := (refresh_current carries.isCurrent.model_current refreshed).2
      obtain ⟨carries', model_current⟩ := carries.refreshed refreshed
      refine ⟨⟨⟨carries'.isCurrent.value_eq, ?_⟩, carries'.iterate_eq, carries'.path_back,
        carries'.iterations_eq, carries'.status_eq, carries'.source⟩,
        congrArg Standing.path standing_eq, congrArg Standing.radius standing_eq, rfl, rfl⟩
      rintro _ ⟨⟩
      exact model_current
  | collapsed => exact ⟨carries, rfl, rfl, rfl, rfl⟩

theorem iterate_concludes {remaining : Nat} {ending : Ending α}
    (reached : Reaches f c options limit x s done r (.moved p))
    (budget : done.length + remaining = limit)
    (ok : outcome (iterate f c options limit remaining p) r = (.ok (q, ending), r')) :
    ∃ done' r₁ progress, Reaches f c options limit x s done' r₁ progress ∧
      Concludes f c options limit done'.length r₁ progress r' q ending := by
  induction remaining generalizing done r p with
  | zero =>
      cases ok
      exact ⟨done, _, _, reached, .exhausted budget⟩
  | succ remaining ih =>
      have before : done.length < limit := by omega
      unfold iterate at ok
      obtain ⟨model, r₁, refreshed, ok⟩ := outcome_bind_eq_ok.mp ok
      by_cases converged : isConverged (norm model.gradient) c.gradientTolerance = true
      · rw [if_pos converged] at ok
        cases ok
        exact ⟨done, r, _, reached, .converged before refreshed converged⟩
      · rw [if_neg converged] at ok
        obtain ⟨progress, r₂, advanced, rest⟩ := outcome_bind_eq_ok.mp ok
        obtain ⟨trial, _, solved, _⟩ := judges_of_ok advanced
        have longer := reached.complete before refreshed (eq_false_of_ne_true converged) solved
          advanced
        cases progress with
        | collapsed last =>
            cases rest
            exact ⟨_, _, _, longer, .collapsed⟩
        | moved next =>
            refine ih longer ?_ rest
            rw [List.length_cons]
            omega

structure Tells (f : Objective Id α n) (p : Point α n) (r : Run (State α) α n)
    (call : Call (State α) α n) (result : RunResult α n) : Prop where
  iterate_eq : result.iterate = p.location
  value_eq : result.value = p.value
  gradientNorm_eq : ∃ gradient, (f.gradient p.location).run.run = .ok gradient ∧
    result.gradientNorm = norm gradient
  iterations_eq : result.iterations = r.state.iterations
  trajectory_eq : result.trajectory = r.path.toList
  radius_eq : result.radius = some r.state.radius
  final_eq : call.iterate = some r.iterate
  status_eq : call.state.status = result.status
  final_radius_eq : call.state.radius = r.state.radius

theorem finish_tells {ending : Ending α} {result : RunResult α n} (isCurrent : p.IsCurrent f)
    (ok : outcome (finish f p ending) r = (.ok result, r')) :
    result.ending = ending ∧
      Tells f p r ⟨.ok result, r'.state, some r'.iterate, r'.events⟩ result := by
  unfold finish at ok
  rw [outcome_bind_of_ok (outcome_update _)] at ok
  cases found : p.model with
  | some model =>
      rw [found] at ok
      cases ok
      have model_current := isCurrent.model_current _ found
      exact ⟨rfl, rfl, rfl, ⟨_, model_current.gradient_eq, rfl⟩, rfl, rfl, rfl, rfl, rfl, rfl⟩
  | none =>
      rw [found] at ok
      obtain ⟨gradient, r₁, computed, rest⟩ := outcome_bind_eq_ok.mp ok
      obtain ⟨gradient_eq, kept⟩ := gradientAt_eq_ok computed
      cases rest
      exact ⟨rfl, rfl, rfl, ⟨gradient, gradient_eq, rfl⟩, congrArg Standing.iterations kept,
        congrArg (·.path.toList) kept, congrArg (some ·.radius) kept,
        congrArg (some ·.iterate) kept, congrArg Standing.status kept,
        congrArg Standing.radius kept⟩

/-- A call that has a result has come to a point and ended there, and this is what it tells. -/
theorem optimize_concludes {dimension : Dimension} {start : Tensor α} {call : Call (State α) α n}
    {result : RunResult α n}
    (called : Id.run (optimize f c dimension s start options) = call)
    (ok : call.result = .ok result) :
    ∃ x limit done r progress r' p,
      checkRequest dimension c.iterationCap options.budget start = .ok (x, limit) ∧
      Reaches f c options limit x s done r progress ∧
      Concludes f c options limit done.length r progress r' p result.ending ∧
      Tells f p r' call result := by
  obtain ⟨x, limit, r₂, accepted, ran, rfl⟩ := Call.exists_run_of_ok called ok
  unfold run at ran
  obtain ⟨p₀, r₀, departed, rest⟩ := outcome_bind_eq_ok.mp ran
  obtain ⟨⟨p, ending⟩, r', iterated, finished⟩ := outcome_bind_eq_ok.mp rest
  obtain ⟨done, r, progress, reached, concludes⟩ :=
    iterate_concludes (.depart departed) (Nat.zero_add _) iterated
  obtain ⟨carries, _⟩ := reached.carries.concluded concludes
  obtain ⟨rfl, tells⟩ := finish_tells carries.isCurrent finished
  exact ⟨x, limit, done, r, progress, r', p, accepted, reached, concludes, tells⟩

end Runs

end Descent.TrustRegion
