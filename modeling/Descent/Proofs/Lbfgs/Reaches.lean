import Descent.Proofs.Lbfgs.Search
/-!
# Runs along lines

The iterations that a run has completed when it stands at a point, each with the move that was
made.  Whatever the objective, and even if its operations may fail, the point carries the value
and the gradient of the current iterate; and what a run returns is read off the point that it has
reached and the way it ends there.
-/

namespace Descent.Lbfgs

open RunM

variable {α : Type} {n : Nat}

/-- A completed iteration: the point it left, the move it made and the point it reached. -/
structure Iteration (α : Type) (n : Nat) where
  source : Point α n
  move : Move α n
  target : Point α n

structure Point.IsCurrent (f : Objective Id α n) (p : Point α n) : Prop where
  value_eq : (f.value p.location).run.run = .ok p.value
  gradient_eq : (f.gradient p.location).run.run = .ok p.gradient

/-- What a run has settled so far: its iterate, the path it has recorded, the number of its
iterations and its status. -/
structure Standing (α : Type) (n : Nat) where
  iterate : Vector α n
  path : Array (Vector α n)
  iterations : Nat
  status : Status

def standing (r : Run (State α n) α n) : Standing α n :=
  ⟨r.iterate, r.path, r.state.iterations, r.state.status⟩

variable [Scalar α] {f : Objective Id α n} {c : Config α} {options : RunOptions}

/-- A run of at most `limit` iterations from `x` has completed the given iterations, newest
first, and stands at a point. -/
inductive Reaches (f : Objective Id α n) (c : Config α) (options : RunOptions) (limit : Nat)
    (x : Vector α n) (s : State α n) :
    List (Iteration α n) → Run (State α n) α n → Point α n → Prop
  | depart {r : Run (State α n) α n} {p : Point α n} :
      outcome (depart f options x) ⟨s, x, #[], #[]⟩ = (.ok p, r) →
      Reaches f c options limit x s [] r p
  | complete {done : List (Iteration α n)} {r r₁ r₂ : Run (State α n) α n} {p q : Point α n}
      {move : Move α n} :
      Reaches f c options limit x s done r p →
      done.length < limit →
      isConverged (norm p.gradient) c.gradientTolerance = false →
      outcome (chooseMove f c p) r = (.ok (.ok move), r₁) →
      outcome (follow f c options p move) r₁ = (.ok q, r₂) →
      Reaches f c options limit x s (⟨p, move, q⟩ :: done) r₂ q

section Steps

variable {p q : Point α n} {r r' : Run (State α n) α n} {x : Vector α n}

omit [Scalar α] in
theorem evaluate_eq_ok {value : α} (ok : outcome (evaluate f x) r = (.ok value, r')) :
    (f.value x).run.run = .ok value ∧
      r' = { r with state := { r.state with evaluations := r.state.evaluations + 1 } } := by
  unfold evaluate countEvaluations at ok
  rw [outcome_bind_of_ok (outcome_update _)] at ok
  obtain ⟨value_eq, rfl⟩ := outcome_ask_eq_ok ok
  exact ⟨value_eq, rfl⟩

omit [Scalar α] in
theorem gradientAt_eq_ok {gradient : Vector α n}
    (ok : outcome (gradientAt f x) r = (.ok gradient, r')) :
    (f.gradient x).run.run = .ok gradient ∧ r' = addGradients 1 r := by
  unfold gradientAt at ok
  rw [outcome_bind_of_ok (outcome_update _)] at ok
  obtain ⟨gradient_eq, rfl⟩ := outcome_ask_eq_ok ok
  exact ⟨gradient_eq, rfl⟩

omit [Scalar α] in
theorem of_uncounted_eq (eq : uncounted r' = uncounted r) :
    standing r' = standing r ∧ r'.state.history = r.state.history ∧ r'.events = r.events :=
  ⟨(congrArg standing eq :), (congrArg (·.state.history) eq :), (congrArg Run.events eq :)⟩

def quasiNewtonSearch (f : Objective Id α n) (c : Config α) (p : Point α n)
    (history : CurvatureHistory α (Vector α n)) : Steps Id α n (SearchResult α) :=
  caught (Wolfe.search
    (ray f p.location (searchDirection history p.gradient (norm p.gradient))) c.wolfe
    (some p.value) (pure (dot p.gradient (searchDirection history p.gradient (norm p.gradient)))))

theorem safeguard_keeps {found : Except (SearchFailure α) (Move α n)}
    (ok : outcome (safeguard f c p) r = (.ok found, r')) :
    standing r' = standing r ∧ r'.state.history = r.state.history.clear ∧
      r'.events = r.events := by
  unfold safeguard at ok
  rw [outcome_bind_of_ok (outcome_update _)] at ok
  obtain ⟨result, r₁, searched, rest⟩ := outcome_bind_eq_ok.mp ok
  have kept := of_uncounted_eq ((armijo_keeps f _ _ _ _ _ _).of_eq searched)
  rcases result with failure | ⟨step, evaluations⟩
  · cases rest
    exact kept
  · cases rest
    exact kept

/-- How a move is chosen.  The search along the quasi-Newton direction finds one; or it fails,
this is reported, and the history is emptied before steepest descent is tried. -/
inductive Chooses (f : Objective Id α n) (c : Config α) (p : Point α n)
    (r r' : Run (State α n) α n) : Except (SearchFailure α) (Move α n) → Prop
  | searched {step : α} {evaluations : Nat} {r₁ : Run (State α n) α n} :
      outcome (quasiNewtonSearch f c p r.state.history) r = (.ok (.ok (step, evaluations)), r₁) →
      r'.state.history = r.state.history →
      r'.events = r.events →
      Chooses f c p r r'
        (.ok ⟨step, searchDirection r.state.history p.gradient (norm p.gradient)⟩)
  | retried {failure : SearchFailure α} {r₁ : Run (State α n) α n}
      {found : Except (SearchFailure α) (Move α n)} :
      outcome (quasiNewtonSearch f c p r.state.history) r = (.ok (.error failure), r₁) →
      r'.state.history = r.state.history.clear →
      r'.events = r.events.push (.searchRetried r.state.iterations failure.fault) →
      Chooses f c p r r' found

theorem chooses_of_ok {found : Except (SearchFailure α) (Move α n)}
    (ok : outcome (chooseMove f c p) r = (.ok found, r')) :
    standing r' = standing r ∧ Chooses f c p r r' found := by
  unfold chooseMove lineSearch at ok
  rw [outcome_bind_of_ok outcome_state] at ok
  obtain ⟨result, r₁, searched, rest⟩ := outcome_bind_eq_ok.mp ok
  obtain ⟨standing_eq, history_eq, events_eq⟩ :=
    of_uncounted_eq ((wolfe_keeps f _ _ _ _ _).of_eq searched)
  rcases result with failure | ⟨step, evaluations⟩
  · unfold countEvaluations at rest
    dsimp only at rest
    rw [outcome_bind_of_ok (outcome_update _), outcome_bind_of_ok outcome_state,
      outcome_bind_of_ok (outcome_report _)] at rest
    obtain ⟨standing_eq', history_eq', events_eq'⟩ := safeguard_keeps rest
    have iterations_eq : r₁.state.iterations = r.state.iterations :=
      congrArg Standing.iterations standing_eq
    refine ⟨standing_eq'.trans standing_eq, .retried searched ?_ ?_⟩
    · rw [history_eq', ← history_eq]
    · rw [events_eq', ← events_eq, ← iterations_eq]
  · cases rest
    exact ⟨standing_eq, .searched searched history_eq events_eq⟩

theorem Chooses.history_of_error {failure : SearchFailure α}
    (chooses : Chooses f c p r r' (.error failure)) :
    r'.state.history = r.state.history.clear := by
  cases chooses with
  | retried _ history_eq _ => exact history_eq

theorem remember_eq_ok {move change : Vector α n}
    (ok : outcome (remember c move change) r = (.ok (), r')) :
    r' = { r with state := { r.state with
      history := (r.state.history.record move change c.curvatureThreshold).1 } } := by
  unfold remember at ok
  rw [outcome_bind_of_ok outcome_state] at ok
  rcases stored : r.state.history.record move change c.curvatureThreshold with ⟨history, _ | _⟩
  · rw [stored] at ok
    cases ok
  · rw [stored] at ok
    cases ok
    rfl

structure Follows (f : Objective Id α n) (c : Config α) (options : RunOptions) (p q : Point α n)
    (move : Move α n) (r r' : Run (State α n) α n) : Prop where
  location_eq : q.location = p.location + move.step * move.direction
  isCurrent : q.IsCurrent f
  standing_eq : standing r' = ⟨q.location, extendPath options r.path q.location,
    r.state.iterations + 1, r.state.status⟩
  history_eq : r'.state.history = (r.state.history.record (move.step * move.direction)
    (q.gradient - p.gradient) c.curvatureThreshold).1
  events_eq : ∃ k gradientNorm pairs,
    r'.events = r.events.push (.lineStep k q.value gradientNorm move.step pairs)

theorem follows_of_ok {move : Move α n}
    (ok : outcome (follow f c options p move) r = (.ok q, r')) :
    Follows f c options p q move r r' := by
  unfold follow at ok
  obtain ⟨value, _, evaluated, ok⟩ := outcome_bind_eq_ok.mp ok
  obtain ⟨value_eq, rfl⟩ := evaluate_eq_ok evaluated
  obtain ⟨gradient, _, computed, ok⟩ := outcome_bind_eq_ok.mp ok
  obtain ⟨gradient_eq, rfl⟩ := gradientAt_eq_ok computed
  obtain ⟨⟨⟩, _, remembered, rest⟩ := outcome_bind_eq_ok.mp ok
  obtain rfl := remember_eq_ok remembered
  cases rest
  exact ⟨rfl, ⟨value_eq, gradient_eq⟩, rfl, rfl, _, _, _, rfl⟩

theorem departs_of_ok (ok : outcome (depart f options x) r = (.ok p, r')) :
    p.location = x ∧ p.IsCurrent f ∧
      standing r' = ⟨r.iterate, extendPath options r.path x, 0, .running⟩ ∧
      r'.state.history = r.state.history.clear ∧ r'.events = r.events := by
  unfold depart at ok
  obtain ⟨⟨⟩, r₁, prepared, ok⟩ := outcome_bind_eq_ok.mp ok
  have ready : standing r₁ = ⟨r.iterate, extendPath options r.path x, 0, .running⟩ ∧
      r₁.state.history = r.state.history.clear ∧ r₁.events = r.events := by
    unfold prepare at prepared
    rw [outcome_bind_of_ok (outcome_update _)] at prepared
    dsimp only at prepared
    split at prepared
    · obtain ⟨⟨⟩, _, consistent, rest⟩ := outcome_bind_eq_ok.mp prepared
      obtain ⟨_, rfl⟩ := outcome_ask_eq_ok consistent
      cases rest
      exact ⟨rfl, rfl, rfl⟩
    · cases prepared
      exact ⟨rfl, rfl, rfl⟩
  obtain ⟨value, _, evaluated, ok⟩ := outcome_bind_eq_ok.mp ok
  obtain ⟨value_eq, rfl⟩ := evaluate_eq_ok evaluated
  obtain ⟨gradient, _, computed, ok⟩ := outcome_bind_eq_ok.mp ok
  obtain ⟨gradient_eq, rfl⟩ := gradientAt_eq_ok computed
  cases ok
  exact ⟨rfl, ⟨value_eq, gradient_eq⟩, ready⟩

theorem advance_cases {result : Except (SearchFailure α) (Point α n)}
    (ok : outcome (advance f c options p) r = (.ok result, r')) :
    (∃ failure, result = .error failure ∧
      outcome (chooseMove f c p) r = (.ok (.error failure), r')) ∨
    ∃ move q r₁, result = .ok q ∧ outcome (chooseMove f c p) r = (.ok (.ok move), r₁) ∧
      outcome (follow f c options p move) r₁ = (.ok q, r') := by
  unfold advance at ok
  obtain ⟨found, r₁, chosen, ok⟩ := outcome_bind_eq_ok.mp ok
  cases found with
  | error failure =>
      cases ok
      exact .inl ⟨failure, rfl, chosen⟩
  | ok move =>
      obtain ⟨q, _, followed, rest⟩ := outcome_bind_eq_ok.mp ok
      cases rest
      exact .inr ⟨move, q, r₁, rfl, chosen, followed⟩

/-- Of the options an iteration reads only whether a trajectory is recorded. -/
theorem advance_congr {options' : RunOptions} (same : options.isTrajectory = options'.isTrajectory)
    (p : Point α n) : advance f c options p = advance f c options' p := by
  unfold advance follow settle trace
  simp only [same]

theorem iterate_congr {options' : RunOptions} (same : options.isTrajectory = options'.isTrajectory)
    (limit remaining : Nat) (p : Point α n) :
    iterate f c options limit remaining p = iterate f c options' limit remaining p := by
  induction remaining generalizing p with
  | zero => rfl
  | succ remaining ih =>
      unfold iterate
      simp only [ih, advance_congr same]

end Steps

section Runs

variable {limit : Nat} {x : Vector α n} {s : State α n} {done : List (Iteration α n)}
  {p q : Point α n} {r r' : Run (State α n) α n}

def visited (x : Vector α n) (done : List (Iteration α n)) : List (Vector α n) :=
  done.map (·.target.location) ++ [x]

/-- What a run carries wherever it comes: the value and the gradient of its current iterate, the
locations that it has visited and the number of its iterations.  Those it has completed lead from
points that were not converged, each from the target of the one before. -/
structure Carries (f : Objective Id α n) (c : Config α) (options : RunOptions) (x : Vector α n)
    (done : List (Iteration α n)) (r : Run (State α n) α n) (p : Point α n) : Prop where
  isCurrent : p.IsCurrent f
  iterate_eq : r.iterate = p.location
  path_eq : r.path.toList = if options.isTrajectory then (visited x done).reverse else []
  iterations_eq : r.state.iterations = done.length
  visited_eq : visited x done = p.location :: done.map (·.source.location)
  source : ∀ i ∈ done, i.source.IsCurrent f ∧
    isConverged (norm i.source.gradient) c.gradientTolerance = false
  target : ∀ i ∈ done, i.target.IsCurrent f

theorem Carries.followed {move : Move α n} {r₁ : Run (State α n) α n}
    (carries : Carries f c options x done r p)
    (notConverged : isConverged (norm p.gradient) c.gradientTolerance = false)
    (kept : standing r₁ = standing r) (follows : Follows f c options p q move r₁ r') :
    Carries f c options x (⟨p, move, q⟩ :: done) r' q := by
  have path_eq : r₁.path = r.path := congrArg Standing.path kept
  have iterations_eq : r₁.state.iterations = r.state.iterations :=
    congrArg Standing.iterations kept
  refine ⟨follows.isCurrent, congrArg Standing.iterate follows.standing_eq, ?_, ?_, ?_, ?_, ?_⟩
  · have longer : r'.path = extendPath options r₁.path q.location :=
      congrArg Standing.path follows.standing_eq
    have before := carries.path_eq
    rw [longer, path_eq, extendPath]
    split at before
    · rw [if_pos ‹_›, if_pos ‹_›, Array.toList_push, before]
      simp [visited]
    · rw [if_neg ‹_›, if_neg ‹_›, before]
  · have more : r'.state.iterations = r₁.state.iterations + 1 :=
      congrArg Standing.iterations follows.standing_eq
    rw [more, iterations_eq, carries.iterations_eq, List.length_cons]
  · exact congrArg (q.location :: ·) carries.visited_eq
  · exact List.forall_mem_cons.mpr ⟨⟨carries.isCurrent, notConverged⟩, carries.source⟩
  · exact List.forall_mem_cons.mpr ⟨follows.isCurrent, carries.target⟩

theorem Reaches.carries (reached : Reaches f c options limit x s done r p) :
    Carries f c options x done r p := by
  induction reached with
  | @depart r p departed =>
      obtain ⟨rfl, isCurrent, standing_eq, _⟩ := departs_of_ok departed
      have path_eq : r.path = extendPath options #[] p.location :=
        congrArg Standing.path standing_eq
      refine ⟨isCurrent, congrArg Standing.iterate standing_eq, ?_,
        congrArg Standing.iterations standing_eq, rfl, by simp, by simp⟩
      rw [path_eq, extendPath]
      split <;> rfl
  | complete _ _ notConverged chosen followed ih =>
      exact ih.followed notConverged (chooses_of_ok chosen).1 (follows_of_ok followed)

/-- The newest iteration of a run led from a point that was not converged to the one where the run
stands. -/
theorem Reaches.of_cons {i : Iteration α n}
    (reached : Reaches f c options limit x s (i :: done) r p) :
    p = i.target ∧ ∃ r₀ r₁, Reaches f c options limit x s done r₀ i.source ∧
      isConverged (norm i.source.gradient) c.gradientTolerance = false ∧
      outcome (chooseMove f c i.source) r₀ = (.ok (.ok i.move), r₁) ∧
      outcome (follow f c options i.source i.move) r₁ = (.ok i.target, r) := by
  cases reached with
  | complete before _ notConverged chosen followed =>
      exact ⟨rfl, _, _, before, notConverged, chosen, followed⟩

theorem Reaches.of_append {newer older : List (Iteration α n)}
    (reached : Reaches f c options limit x s (newer ++ older) r p) :
    ∃ r₀ p₀, Reaches f c options limit x s older r₀ p₀ := by
  induction newer generalizing r p with
  | nil => exact ⟨r, p, reached⟩
  | cons i newer ih =>
      obtain ⟨_, _, _, before, _⟩ := reached.of_cons
      exact ih before

/-- The iterations that a run has completed determine where it stands. -/
theorem Reaches.unique (reached : Reaches f c options limit x s done r p)
    (reached' : Reaches f c options limit x s done r' q) : r = r' ∧ p = q := by
  induction reached generalizing r' q with
  | depart departed =>
      cases reached' with
      | depart departed' =>
          cases departed.symm.trans departed'
          exact ⟨rfl, rfl⟩
  | complete before _ _ chosen followed ih =>
      cases reached' with
      | complete before' _ _ chosen' followed' =>
          obtain ⟨rfl, _⟩ := ih before'
          cases chosen.symm.trans chosen'
          cases followed.symm.trans followed'
          exact ⟨rfl, rfl⟩

inductive Ends (f : Objective Id α n) (c : Config α) (limit count : Nat)
    (r : Run (State α n) α n) (p : Point α n) : Run (State α n) α n → Ending α → Prop
  | exhausted : count = limit → Ends f c limit count r p r (.iterationLimit limit)
  | converged :
      count < limit →
      isConverged (norm p.gradient) c.gradientTolerance = true →
      Ends f c limit count r p r .converged
  | failed {failure : SearchFailure α} {r' : Run (State α n) α n} :
      count < limit →
      isConverged (norm p.gradient) c.gradientTolerance = false →
      outcome (chooseMove f c p) r = (.ok (.error failure), r') →
      Ends f c limit count r p r' (.lineSearchFailed failure.fault)

theorem Ends.standing_eq {count : Nat} {ending : Ending α}
    (ends : Ends f c limit count r p r' ending) : standing r' = standing r := by
  cases ends with
  | exhausted => rfl
  | converged => rfl
  | failed _ _ chosen => exact (chooses_of_ok chosen).1

theorem iterate_ends {remaining : Nat} {ending : Ending α}
    (reached : Reaches f c options limit x s done r p) (budget : done.length + remaining = limit)
    (ok : outcome (iterate f c options limit remaining p) r = (.ok (q, ending), r')) :
    ∃ done' r₁, Reaches f c options limit x s done' r₁ q ∧
      Ends f c limit done'.length r₁ q r' ending := by
  induction remaining generalizing done r p with
  | zero =>
      cases ok
      exact ⟨done, _, reached, .exhausted budget⟩
  | succ remaining ih =>
      have before : done.length < limit := by omega
      unfold iterate at ok
      by_cases converged : isConverged (norm p.gradient) c.gradientTolerance = true
      · rw [if_pos converged] at ok
        cases ok
        exact ⟨done, _, reached, .converged before converged⟩
      · rw [if_neg converged] at ok
        obtain ⟨result, r₂, advanced, rest⟩ := outcome_bind_eq_ok.mp ok
        have notConverged := eq_false_of_ne_true converged
        rcases advance_cases advanced with ⟨failure, rfl, chosen⟩ |
          ⟨move, next, r₁, rfl, chosen, followed⟩
        · cases rest
          exact ⟨done, r, reached, .failed before notConverged chosen⟩
        · refine ih (reached.complete before notConverged chosen followed) ?_ rest
          rw [List.length_cons]
          omega

/-- What a call returns and leaves behind whose run has ended at a point. -/
structure Tells (options : RunOptions) (x : Vector α n) (done : List (Iteration α n))
    (p : Point α n) (r : Run (State α n) α n) (call : Call (State α n) α n)
    (result : RunResult α n) : Prop where
  iterate_eq : result.iterate = p.location
  value_eq : result.value = p.value
  gradientNorm_eq : result.gradientNorm = norm p.gradient
  iterations_eq : result.iterations = done.length
  trajectory_eq :
    result.trajectory = if options.isTrajectory then (visited x done).reverse else []
  final_eq : call.iterate = some p.location
  status_eq : call.state.status = result.status
  history_eq : call.state.history = r.state.history
  events_eq : ∃ gradientNorm, call.events =
    r.events.push (.lineFinished result.status result.iterations p.value gradientNorm)

/-- A call that has a result has come to a point and ended there, and this is what it tells. -/
theorem optimize_ends {dimension : Dimension} {start : Tensor α} {call : Call (State α n) α n}
    {result : RunResult α n}
    (called : Id.run (optimize f c dimension s start options) = call)
    (ok : call.result = .ok result) :
    ∃ x limit done r p r', checkRequest dimension c.iterationCap options.budget start =
        .ok (x, limit) ∧
      Reaches f c options limit x s done r p ∧ Ends f c limit done.length r p r' result.ending ∧
      Tells options x done p r' call result := by
  obtain ⟨x, limit, r₂, accepted, ran, rfl⟩ := Call.exists_run_of_ok called ok
  unfold run at ran
  obtain ⟨p₀, r₀, departed, rest⟩ := outcome_bind_eq_ok.mp ran
  obtain ⟨⟨p, ending⟩, r', iterated, finished⟩ := outcome_bind_eq_ok.mp rest
  obtain ⟨done, r, reached, ends⟩ := iterate_ends (.depart departed) (Nat.zero_add _) iterated
  have carries := reached.carries
  have iterate_eq : r'.iterate = r.iterate := congrArg Standing.iterate ends.standing_eq
  have path_eq : r'.path = r.path := congrArg Standing.path ends.standing_eq
  have iterations_eq : r'.state.iterations = r.state.iterations :=
    congrArg Standing.iterations ends.standing_eq
  cases finished
  refine ⟨x, limit, done, r, p, r', accepted, reached, ends, rfl, rfl, rfl, ?_, ?_, ?_, rfl, rfl,
    _, rfl⟩
  · exact iterations_eq.trans carries.iterations_eq
  · exact (congrArg Array.toList path_eq).trans carries.path_eq
  · exact congrArg some (iterate_eq.trans carries.iterate_eq)

end Runs

end Descent.Lbfgs
