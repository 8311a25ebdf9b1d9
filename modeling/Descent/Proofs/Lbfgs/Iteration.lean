import Descent.Proofs.Lbfgs.Reaches
/-!
# Iterations of a run

Runs of a function and its gradient, which never fail.  Every move is the answer of one of the
two line searches along the ray of the function, and every point is that of the function at its
location.
-/

namespace Descent.Lbfgs

open RunM

variable {α : Type} [Scalar α] {n : Nat} {name : String} {value : Vector α n → α}
  {gradient : Vector α n → Vector α n} {hessian : Vector α n → SquareMatrix α n} {c : Config α}
  {options : RunOptions}

inductive Found (value : Vector α n → α) (gradient : Vector α n → Vector α n) (c : Config α)
    (p : Point α n) (move : Move α n) : Prop
  | wolfe (evaluations : Nat) :
      Wolfe.search (Ray.along value gradient p.location move.direction) c.wolfe (some p.value)
        (pure (dot p.gradient move.direction)) = .ok (move.step, evaluations) →
      Found value gradient c p move
  | armijo (evaluations : Nat) :
      Armijo.search (Ray.along value gradient p.location move.direction).value
        { Armijo.defaults with decrease := c.decrease } p.value
        (dot p.gradient move.direction) 0 = .ok (move.step, evaluations) →
      Found value gradient c p move

def record (r : Run (State α n) α n) : Array (Vector α n) × Nat := (r.path, r.state.iterations)

section Searches

variable (name value gradient hessian c) (p : Point α n) (r : Run (State α n) α n)

theorem safeguard_eq :
    ∃ r', outcome (safeguard (.ofFunctions name value gradient hessian) c p) r =
        (.ok ((Armijo.search (Ray.along value gradient p.location
            (steepestDescent p.gradient (norm p.gradient))).value
          { Armijo.defaults with decrease := c.decrease } p.value
          (dot p.gradient (steepestDescent p.gradient (norm p.gradient))) 0).run.map
            fun found => ⟨found.1, steepestDescent p.gradient (norm p.gradient)⟩), r') ∧
      record r' = record r ∧ r'.state.history = r.state.history.clear ∧ r'.events = r.events := by
  let direction := steepestDescent p.gradient (norm p.gradient)
  let settings : Armijo.Settings α := { Armijo.defaults with decrease := c.decrease }
  obtain ⟨k, searched⟩ := armijo_answers name value gradient hessian p.location direction
    settings p.value (dot p.gradient direction) 0
    { r with state := { r.state with history := r.state.history.clear } }
  unfold safeguard
  rw [outcome_bind_of_ok (outcome_update _)]
  dsimp only
  rw [outcome_bind_of_ok searched]
  rcases (Armijo.search (Ray.along value gradient p.location direction).value settings
      p.value (dot p.gradient direction) 0).run with failure | found
  · exact ⟨_, rfl, rfl, rfl, rfl⟩
  · exact ⟨_, rfl, rfl, rfl, rfl⟩

/-- A search along the quasi-Newton direction succeeds, or it is reported and the safeguard is
tried. -/
theorem chooseMove_cases :
    (∃ found r', (Wolfe.search (Ray.along value gradient p.location
          (searchDirection r.state.history p.gradient (norm p.gradient))) c.wolfe (some p.value)
        (pure (dot p.gradient
          (searchDirection r.state.history p.gradient (norm p.gradient))))).run = .ok found ∧
      outcome (chooseMove (.ofFunctions name value gradient hessian) c p) r =
        (.ok (.ok ⟨found.1, searchDirection r.state.history p.gradient (norm p.gradient)⟩), r') ∧
      record r' = record r ∧ r'.state.history = r.state.history ∧ r'.events = r.events) ∨
    ∃ failure r₁, (Wolfe.search (Ray.along value gradient p.location
          (searchDirection r.state.history p.gradient (norm p.gradient))) c.wolfe (some p.value)
        (pure (dot p.gradient
          (searchDirection r.state.history p.gradient (norm p.gradient))))).run = .error failure ∧
      outcome (chooseMove (.ofFunctions name value gradient hessian) c p) r =
        outcome (safeguard (.ofFunctions name value gradient hessian) c p) r₁ ∧
      record r₁ = record r ∧
      r₁.events = r.events.push (.searchRetried r.state.iterations failure.fault) := by
  let direction := searchDirection r.state.history p.gradient (norm p.gradient)
  obtain ⟨k, searched⟩ := wolfe_answers name value gradient hessian p.location direction
    c.wolfe p.value (dot p.gradient direction) r
  unfold chooseMove lineSearch
  rw [outcome_bind_of_ok outcome_state]
  dsimp only
  rw [outcome_bind_of_ok searched]
  rcases (Wolfe.search (Ray.along value gradient p.location direction) c.wolfe
      (some p.value) (pure (dot p.gradient direction))).run with failure | found
  · exact .inr ⟨failure, _, rfl, rfl, rfl, rfl⟩
  · exact .inl ⟨found, _, rfl, rfl, rfl, rfl, rfl⟩

theorem safeguard_finds :
    ∃ found r', outcome (safeguard (.ofFunctions name value gradient hessian) c p) r =
        (.ok found, r') ∧ record r' = record r ∧
      ∀ move, found = .ok move → Found value gradient c p move := by
  obtain ⟨r', guarded, kept, _⟩ := safeguard_eq name value gradient hessian c p r
  refine ⟨_, r', guarded, kept, fun move made => ?_⟩
  obtain ⟨found, searched, rfl⟩ := exists_of_map_eq_ok made
  exact .armijo found.2 searched

theorem chooseMove_finds :
    ∃ found r', outcome (chooseMove (.ofFunctions name value gradient hessian) c p) r =
        (.ok found, r') ∧ record r' = record r ∧
      ∀ move, found = .ok move → Found value gradient c p move := by
  obtain ⟨found, r', searched, chosen, kept, _⟩ | ⟨failure, r₁, _, chosen, kept, _⟩ :=
    chooseMove_cases name value gradient hessian c p r
  · refine ⟨_, r', chosen, kept, ?_⟩
    rintro move ⟨⟩
    exact .wolfe found.2 searched
  · rw [chosen, ← kept]
    exact safeguard_finds name value gradient hessian c p r₁

end Searches

section Steps

variable {p q : Point α n} {r r' : Run (State α n) α n}

def Point.at (value : Vector α n → α) (gradient : Vector α n → Vector α n) (x : Vector α n) :
    Point α n := ⟨x, value x, gradient x⟩

omit [Scalar α] in
theorem outcome_evaluate (x : Vector α n) :
    outcome (evaluate (.ofFunctions name value gradient hessian) x) r =
      (.ok (value x), { r with
        state := { r.state with evaluations := r.state.evaluations + 1 } }) := rfl

omit [Scalar α] in
theorem outcome_gradientAt (x : Vector α n) :
    outcome (gradientAt (.ofFunctions name value gradient hessian) x) r =
      (.ok (gradient x), addGradients 1 r) := rfl

theorem outcome_remember {move change : Vector α n}
    {history : CurvatureHistory α (Vector α n)} {isKept : Bool}
    (stored : r.state.history.record move change c.curvatureThreshold = (history, .ok isKept)) :
    outcome (remember c move change) r =
      (.ok (), { r with state := { r.state with history := history } }) := by
  unfold remember
  rw [outcome_bind_of_ok outcome_state, stored]
  rfl

omit [Scalar α] in
theorem Point.IsCurrent.eq_at (isCurrent : p.IsCurrent (.ofFunctions name value gradient hessian)) :
    p = .at value gradient p.location := by
  have value_eq : value p.location = p.value := Except.ok.inj isCurrent.value_eq
  have gradient_eq : gradient p.location = p.gradient := Except.ok.inj isCurrent.gradient_eq
  rw [Point.at, value_eq, gradient_eq]

/-- What a move that is followed leads to, and the pair that is stored for it. -/
theorem follow_eq_ok {move : Move α n}
    (ok : outcome (follow (.ofFunctions name value gradient hessian) c options p move) r =
      (.ok q, r')) :
    q = .at value gradient (p.location + move.step * move.direction) ∧
      record r' = (extendPath options r.path q.location, r.state.iterations + 1) ∧
      r'.state.history = (r.state.history.record (move.step * move.direction)
        (q.gradient - p.gradient) c.curvatureThreshold).1 ∧
      ∃ k gradientNorm pairs,
        r'.events = r.events.push (.lineStep k q.value gradientNorm move.step pairs) := by
  have follows := follows_of_ok ok
  have point_eq := follows.isCurrent.eq_at
  rw [follows.location_eq] at point_eq
  have path_eq := congrArg Standing.path follows.standing_eq
  have iterations_eq := congrArg Standing.iterations follows.standing_eq
  exact ⟨point_eq, Prod.ext path_eq iterations_eq, follows.history_eq, follows.events_eq⟩

theorem exists_follow {move : Move α n} {history : CurvatureHistory α (Vector α n)}
    {isKept : Bool}
    (stored : r.state.history.record (move.step * move.direction)
      (gradient (p.location + move.step * move.direction) - p.gradient) c.curvatureThreshold =
      (history, .ok isKept)) :
    ∃ q r', outcome (follow (.ofFunctions name value gradient hessian) c options p move) r =
      (.ok q, r') := by
  have remembered (r' : Run (State α n) α n) (same : r'.state.history = r.state.history) :
      outcome (remember c (move.step * move.direction)
        (gradient (p.location + move.step * move.direction) - p.gradient)) r' =
        (.ok (), { r' with state := { r'.state with history := history } }) :=
    outcome_remember (by rw [same, stored])
  unfold follow
  rw [outcome_bind_of_ok (outcome_evaluate _), outcome_bind_of_ok (outcome_gradientAt _),
    outcome_bind_of_ok (remembered _ ?_)]
  · exact ⟨_, _, rfl⟩
  · rfl

theorem depart_eq_ok {x : Vector α n}
    (ok : outcome (depart (.ofFunctions name value gradient hessian) options x) r = (.ok p, r')) :
    p = .at value gradient x ∧ record r' = (extendPath options r.path x, 0) := by
  obtain ⟨rfl, isCurrent, standing_eq, _⟩ := departs_of_ok ok
  have path_eq := congrArg Standing.path standing_eq
  have iterations_eq := congrArg Standing.iterations standing_eq
  exact ⟨isCurrent.eq_at, Prod.ext path_eq iterations_eq⟩

end Steps

section Runs

variable {limit : Nat} {x : Vector α n} {s : State α n} {done : List (Iteration α n)}
  {p q : Point α n} {r r' : Run (State α n) α n}

theorem Reaches.point_eq
    (reached : Reaches (.ofFunctions name value gradient hessian) c options limit x s done r p) :
    p = .at value gradient p.location := reached.carries.isCurrent.eq_at

theorem optimize_reaches {dimension : Dimension} {start : Tensor α} {result : RunResult α n}
    (accepted : checkRequest dimension c.iterationCap options.budget start = .ok (x, limit))
    (ok : (Id.run (optimize (.ofFunctions name value gradient hessian) c dimension s start
      options)).result = .ok result) :
    ∃ done r p, Reaches (.ofFunctions name value gradient hessian) c options limit x s done r p ∧
      result.iterate = p.location ∧ result.value = p.value ∧ result.iterations = done.length ∧
      result.trajectory = if options.isTrajectory then (visited x done).reverse else [] := by
  obtain ⟨_, _, done, r, p, _, accepted', reached, _, tells⟩ := optimize_ends rfl ok
  rw [accepted] at accepted'
  cases accepted'
  exact ⟨done, r, p, reached, tells.iterate_eq, tells.value_eq, tells.iterations_eq,
    tells.trajectory_eq⟩

end Runs

end Descent.Lbfgs
