import Descent.Proofs.Budget
import Descent.Proofs.Current
/-!
# Smaller budgets

A run with a smaller budget does what a run with a larger one does, up to where it is cut off: it
makes as many iterations as it may and passes the same points.  A run that ends by itself before
it has used the smaller budget is the same with either.
-/

namespace Descent

open RunM

/-- The result of a run with a budget of `k` iterations beside that of the same run with a larger
one. -/
structure RunResult.Truncates {α : Type} {n : Nat} (k : Nat) (result longer : RunResult α n) :
    Prop where
  iterations_eq : result.iterations = min k longer.iterations
  trajectory_isPrefix : result.trajectory <+: longer.trajectory
  eq_of_lt : longer.iterations < k → result = longer

/-- A call with a budget of `k` iterations beside the same call with a larger one.  If the latter
returns so does the former, and the two are the same where the smaller budget is not used up. -/
def Call.Truncates {σ α : Type} {n : Nat} (k : Nat) (call longer : Call σ α n) : Prop :=
  ∀ result', longer.result = .ok result' → ∃ result, call.result = .ok result ∧
    result.Truncates k result' ∧ (result'.iterations < k → call = longer)

section Prolongs

variable {α : Type} {n remaining count count' : Nat} {ending : Ending α}
  {path path₁ path' : Array (Vector α n)}

structure Prolongs (remaining : Nat) (ending : Ending α) (path path' : Array (Vector α n))
    (count count' : Nat) : Prop where
  path_isPrefix : path.toList <+: path'.toList
  le : count ≤ count'
  le_add : count' ≤ count + remaining
  eq_of_exhausted : ending.status = .iterationLimit → count' = count + remaining

namespace Prolongs

theorem exhausted : Prolongs 0 ending path path count count :=
  ⟨List.prefix_rfl, le_rfl, le_rfl, fun _ => rfl⟩

theorem stopped (ends : ending.status ≠ .iterationLimit) :
    Prolongs remaining ending path path count count :=
  ⟨List.prefix_rfl, le_rfl, Nat.le_add_right _ _, fun exhausted => absurd exhausted ends⟩

theorem iteration (path_isPrefix : path.toList <+: path₁.toList)
    (rest : Prolongs remaining ending path₁ path' (count + 1) count') :
    Prolongs (remaining + 1) ending path path' count count' := by
  have le := rest.le
  have le_add := rest.le_add
  refine ⟨path_isPrefix.trans rest.path_isPrefix, by omega, by omega, fun exhausted => ?_⟩
  rw [rest.eq_of_exhausted exhausted]
  omega

end Prolongs

theorem prefix_extendPath (options : RunOptions) (x : Vector α n) :
    path.toList <+: (extendPath options path x).toList := by
  unfold extendPath
  split
  · rw [Array.toList_push]
    exact List.prefix_append _ _
  · exact List.prefix_rfl

theorem RunResult.Truncates.refl {result : RunResult α n} {k : Nat} (le : result.iterations ≤ k) :
    result.Truncates k result :=
  ⟨(Nat.min_eq_right le).symm, List.prefix_rfl, fun _ => rfl⟩

/-- A run that is cut off where a longer one goes on has a truncated result. -/
theorem RunResult.Truncates.of_cut {result longer : RunResult α n} {k extra : Nat}
    {ending ending' : Ending α} (exhausted : ending.status = .iterationLimit)
    (before : Prolongs k ending path path₁ 0 count)
    (after : Prolongs extra ending' path₁ path' count count')
    (iterations_eq : result.iterations = count) (trajectory_eq : result.trajectory = path₁.toList)
    (iterations_eq' : longer.iterations = count')
    (trajectory_eq' : longer.trajectory = path'.toList) :
    result.Truncates k longer ∧ ¬ longer.iterations < k := by
  have used : count = 0 + k := before.eq_of_exhausted exhausted
  have more : k ≤ longer.iterations := by
    rw [iterations_eq']
    have le := after.le
    omega
  refine ⟨⟨?_, ?_, fun lt => ?_⟩, Nat.not_lt.mpr more⟩
  · rw [iterations_eq, Nat.min_eq_left more, used, Nat.zero_add]
  · rw [trajectory_eq, trajectory_eq']
    exact after.path_isPrefix
  · exact absurd lt (Nat.not_lt.mpr more)

end Prolongs

theorem Call.make_truncates {σ α : Type} [Scalar α] {n k k' : Nat} {dimension : Dimension}
    {cap : Int} {options : RunOptions} {s : σ} {start : Tensor α}
    {run run' : Nat → Vector α n → RunM Id σ α n (RunResult α n)} (positive : 1 ≤ k) (le : k ≤ k')
    (truncates : ∀ x longer r', outcome (run' k' x) ⟨s, x, #[], #[]⟩ = (.ok longer, r') →
      ∃ result r'', outcome (run k x) ⟨s, x, #[], #[]⟩ = (.ok result, r'') ∧
        result.Truncates k longer ∧ (longer.iterations < k → (result, r'') = (longer, r'))) :
    (Id.run (Call.make dimension cap { options with budget := some (k : Int) } s start
      run)).Truncates k (Id.run (Call.make dimension cap { options with budget := some (k' : Int) }
        s start run')) := by
  intro longer ok
  obtain ⟨x, limit, r', accepted', ran', call_eq'⟩ := Call.exists_run_of_ok rfl ok
  have positive' : 0 < k' := by omega
  cases accepted'.symm.trans (checkRequest_budget positive' accepted')
  have accepted : checkRequest dimension cap ({ options with budget := some (k : Int) }).budget
      start = .ok (x, k) := checkRequest_budget positive accepted'
  obtain ⟨result, r, ran, truncated, same⟩ := truncates x longer r' ran'
  have call_eq := Call.make_of_ok (s := s) accepted run
  rw [ran] at call_eq
  rw [call_eq, call_eq']
  refine ⟨result, rfl, truncated, fun lt => ?_⟩
  cases same lt
  rfl

namespace Lbfgs

variable {α : Type} [Scalar α] {n : Nat} {f : Objective Id α n} {c : Config α}
  {options : RunOptions} {limit : Nat} {p q : Point α n} {r r' : Run (State α n) α n}
  {x : Vector α n} {ending : Ending α}

theorem iterate_prolongs {remaining : Nat}
    (ok : outcome (iterate f c options limit remaining p) r = (.ok (q, ending), r')) :
    Prolongs remaining ending r.path r'.path r.state.iterations r'.state.iterations := by
  induction remaining generalizing p r with
  | zero =>
      cases ok
      exact .exhausted
  | succ remaining ih =>
      unfold iterate at ok
      by_cases converged : isConverged (norm p.gradient) c.gradientTolerance = true
      · rw [if_pos converged] at ok
        cases ok
        exact .stopped (by simp [Ending.status])
      · rw [if_neg converged] at ok
        obtain ⟨result, r₂, advanced, rest⟩ := outcome_bind_eq_ok.mp ok
        rcases advance_cases advanced with ⟨failure, rfl, chosen⟩ |
          ⟨move, next, r₁, rfl, chosen, followed⟩
        · cases rest
          have kept := (chooses_of_ok chosen).1
          have path_eq : r'.path = r.path := congrArg Standing.path kept
          have iterations_eq : r'.state.iterations = r.state.iterations :=
            congrArg Standing.iterations kept
          rw [path_eq, iterations_eq]
          exact .stopped (by simp [Ending.status])
        · have kept := (chooses_of_ok chosen).1
          have path_eq : r₁.path = r.path := congrArg Standing.path kept
          have iterations_eq : r₁.state.iterations = r.state.iterations :=
            congrArg Standing.iterations kept
          have follows := follows_of_ok followed
          have longer : r₂.path = extendPath options r₁.path next.location :=
            congrArg Standing.path follows.standing_eq
          have more : r₂.state.iterations = r₁.state.iterations + 1 :=
            congrArg Standing.iterations follows.standing_eq
          have prolongs := ih rest
          rw [longer, path_eq, more, iterations_eq] at prolongs
          exact prolongs.iteration (prefix_extendPath options _)

/-- A run with a smaller budget returns where one with a larger budget does. -/
theorem run_truncates {k k' : Nat} {longer : RunResult α n} (le : k ≤ k')
    (ok : outcome (run f c options k' x) r = (.ok longer, r')) :
    ∃ result r'', outcome (run f c options k x) r = (.ok result, r'') ∧
      result.Truncates k longer ∧ (longer.iterations < k → (result, r'') = (longer, r')) := by
  obtain ⟨extra, rfl⟩ := Nat.exists_eq_add_of_le le
  unfold run at ok ⊢
  obtain ⟨p, r₀, departed, rest⟩ := outcome_bind_eq_ok.mp ok
  obtain ⟨⟨q, ending⟩, r₁, iterated, finished⟩ := outcome_bind_eq_ok.mp rest
  rw [outcome_bind_of_ok departed]
  have start : r₀.state.iterations = 0 :=
    congrArg Standing.iterations (departs_of_ok departed).2.2.1
  rcases iterate_add f c options k (k + extra) k extra p r₀ with
    ⟨q₁, r₂, cut, goes⟩ | ⟨_, same⟩
  · have before := iterate_prolongs cut
    have after := iterate_prolongs (goes.symm.trans iterated)
    rw [start] at before
    rw [outcome_bind_of_ok cut]
    cases finished
    refine ⟨_, _, rfl, And.imp_right (fun used lt => absurd lt used) ?_⟩
    exact RunResult.Truncates.of_cut rfl before after rfl rfl rfl rfl
  · have ended := same.symm.trans iterated
    have within := (iterate_prolongs ended).le_add
    rw [start, Nat.zero_add] at within
    rw [outcome_bind_of_ok ended]
    cases finished
    exact ⟨_, _, rfl, .refl within, fun _ => rfl⟩

end Lbfgs

namespace TrustRegion

variable {α : Type} [Scalar α] {n : Nat} {f : Objective Id α n} {c : Config α}
  {options : RunOptions} {limit : Nat} {p q : Point α n} {r r' : Run (State α) α n}
  {x : Vector α n} {ending : Ending α}

theorem Judges.prolongs {model : Model α n} {trial : TrialStep α n} {candidate : α}
    {progress : Progress α n} (judges : Judges c options p model trial candidate r r' progress) :
    r.path.toList <+: r'.path.toList ∧ r'.state.iterations = r.state.iterations + 1 := by
  -- Only an accepted step extends the path.
  have stays {radius : α} (standing_eq : standing r' = ⟨r.iterate, r.path, r.state.iterations + 1,
      r.state.status, radius⟩) :
      r.path.toList <+: r'.path.toList ∧ r'.state.iterations = r.state.iterations + 1 := by
    have path_eq : r'.path = r.path := congrArg Standing.path standing_eq
    exact ⟨path_eq ▸ List.prefix_rfl, congrArg Standing.iterations standing_eq⟩
  cases judges with
  | accepted _ standing_eq =>
      have longer : r'.path = extendPath options r.path (p.location + trial.step) :=
        congrArg Standing.path standing_eq
      exact ⟨longer ▸ prefix_extendPath options _, congrArg Standing.iterations standing_eq⟩
  | rejected _ _ standing_eq => exact stays standing_eq
  | collapsed _ _ standing_eq => exact stays standing_eq

theorem iterate_prolongs {remaining : Nat}
    (ok : outcome (iterate f c options limit remaining p) r = (.ok (q, ending), r')) :
    Prolongs remaining ending r.path r'.path r.state.iterations r'.state.iterations := by
  induction remaining generalizing p r with
  | zero =>
      cases ok
      exact .exhausted
  | succ remaining ih =>
      unfold iterate at ok
      obtain ⟨model, r₁, refreshed, ok⟩ := outcome_bind_eq_ok.mp ok
      have kept := (refresh_cases refreshed).2
      have path_eq : r₁.path = r.path := congrArg Standing.path kept
      have iterations_eq : r₁.state.iterations = r.state.iterations :=
        congrArg Standing.iterations kept
      rw [← path_eq, ← iterations_eq]
      by_cases converged : isConverged (norm model.gradient) c.gradientTolerance = true
      · rw [if_pos converged] at ok
        cases ok
        exact .stopped (by simp [Ending.status])
      · rw [if_neg converged] at ok
        obtain ⟨progress, r₂, advanced, rest⟩ := outcome_bind_eq_ok.mp ok
        obtain ⟨_, _, _, _, judges⟩ := judges_of_ok advanced
        obtain ⟨path_isPrefix, more⟩ := judges.prolongs
        refine .iteration path_isPrefix ?_
        rw [← more]
        cases progress with
        | collapsed last =>
            cases rest
            exact .stopped (by simp [Ending.status])
        | moved next => exact ih rest

def Point.HasGradient (f : Objective Id α n) (p : Point α n) : Prop :=
  p.model ≠ none ∨ ∃ gradient, (f.gradient p.location).run.run = .ok gradient

omit [Scalar α] in
theorem Point.HasGradient.of_model {model : Model α n}
    (found : p.model = some model ∨ model.IsCurrent f p.location) : p.HasGradient f := by
  rcases found with stored | computed
  · exact .inl (stored ▸ Option.some_ne_none model)
  · exact .inr ⟨_, computed.gradient_eq⟩

theorem finish_eq_ok {result : RunResult α n}
    (ok : outcome (finish f q ending) r = (.ok result, r')) :
    q.HasGradient f ∧ result.iterations = r.state.iterations ∧
      result.trajectory = r.path.toList := by
  unfold finish at ok
  rw [outcome_bind_of_ok (outcome_update _)] at ok
  cases found : q.model with
  | some model =>
      rw [found] at ok
      cases ok
      exact ⟨.of_model (.inl found), rfl, rfl⟩
  | none =>
      rw [found] at ok
      obtain ⟨gradient, r₁, computed, rest⟩ := outcome_bind_eq_ok.mp ok
      obtain ⟨gradient_eq, kept⟩ := gradientAt_eq_ok computed
      cases rest
      exact ⟨.inr ⟨gradient, gradient_eq⟩, congrArg Standing.iterations kept,
        congrArg (·.path.toList) kept⟩

theorem exists_finish (known : q.HasGradient f) (r : Run (State α) α n) (ending : Ending α) :
    ∃ result r', outcome (finish f q ending) r = (.ok result, r') := by
  unfold finish
  rw [outcome_bind_of_ok (outcome_update _)]
  cases found : q.model with
  | some model => exact ⟨_, _, rfl⟩
  | none =>
      obtain ⟨gradient, gradient_eq⟩ := known.resolve_left (not_not.mpr found)
      unfold gradientAt
      dsimp only
      rw [bind_assoc, outcome_bind_of_ok (outcome_ask_of_eq gradient_eq)]
      exact ⟨_, _, rfl⟩

theorem hasGradient_of_rest {extra : Nat} {result : RunResult α n} {r'' : Run (State α) α n}
    (iterated : outcome (iterate f c options limit extra p) r = (.ok (q, ending), r'))
    (finished : outcome (finish f q ending) r' = (.ok result, r'')) : p.HasGradient f := by
  cases extra with
  | zero =>
      cases iterated
      exact (finish_eq_ok finished).1
  | succ extra =>
      unfold iterate at iterated
      obtain ⟨model, r₁, refreshed, _⟩ := outcome_bind_eq_ok.mp iterated
      exact .of_model (refresh_cases refreshed).1

theorem run_truncates {k k' : Nat} {longer : RunResult α n} (le : k ≤ k')
    (ok : outcome (run f c options k' x) r = (.ok longer, r')) :
    ∃ result r'', outcome (run f c options k x) r = (.ok result, r'') ∧
      result.Truncates k longer ∧ (longer.iterations < k → (result, r'') = (longer, r')) := by
  obtain ⟨extra, rfl⟩ := Nat.exists_eq_add_of_le le
  unfold run at ok ⊢
  obtain ⟨p, r₀, departed, rest⟩ := outcome_bind_eq_ok.mp ok
  obtain ⟨⟨q, ending⟩, r₁, iterated, finished⟩ := outcome_bind_eq_ok.mp rest
  obtain ⟨_, iterations_eq, trajectory_eq⟩ := finish_eq_ok finished
  have start : r₀.state.iterations = 0 :=
    congrArg Standing.iterations (departs_of_ok departed).2.2.2
  rw [outcome_bind_of_ok departed]
  rcases iterate_add f c options k (k + extra) k extra p r₀ with
    ⟨q₁, r₂, cut, goes⟩ | ⟨_, same⟩
  · have resumed := goes.symm.trans iterated
    have before := iterate_prolongs cut
    rw [start] at before
    obtain ⟨result, r'', finished'⟩ :=
      exists_finish (hasGradient_of_rest resumed finished) r₂ (.iterationLimit k)
    obtain ⟨_, iterations_eq', trajectory_eq'⟩ := finish_eq_ok finished'
    obtain ⟨truncates, used⟩ := RunResult.Truncates.of_cut rfl before (iterate_prolongs resumed)
      iterations_eq' trajectory_eq' iterations_eq trajectory_eq
    rw [outcome_bind_of_ok cut]
    exact ⟨result, r'', finished', truncates, fun lt => absurd lt used⟩
  · have ended := same.symm.trans iterated
    have within := (iterate_prolongs ended).le_add
    rw [start, Nat.zero_add, ← iterations_eq] at within
    rw [outcome_bind_of_ok ended]
    exact ⟨longer, r', finished, .refl within, fun _ => rfl⟩

end TrustRegion

/-- A smaller budget only truncates a run, with both optimizers. -/
theorem optimize_truncates {α : Type} [Scalar α] {n k k' : Nat} (f : Objective Id α n)
    (options : RunOptions) (dimension : Dimension) (start : Tensor α) (positive : 1 ≤ k)
    (le : k ≤ k') :
    (∀ (c : Lbfgs.Config α) (s : Lbfgs.State α n),
      (Id.run (Lbfgs.optimize f c dimension s start
        { options with budget := some (k : Int) })).Truncates k
        (Id.run (Lbfgs.optimize f c dimension s start
          { options with budget := some (k' : Int) }))) ∧
    ∀ (c : TrustRegion.Config α) (s : TrustRegion.State α),
      (Id.run (TrustRegion.optimize f c dimension s start
        { options with budget := some (k : Int) })).Truncates k
        (Id.run (TrustRegion.optimize f c dimension s start
          { options with budget := some (k' : Int) })) := by
  constructor
  · intro c s
    refine Call.make_truncates positive le fun x longer r' ran' => ?_
    rw [Lbfgs.run_budget] at ran' ⊢
    exact Lbfgs.run_truncates le ran'
  · intro c s
    refine Call.make_truncates positive le fun x longer r' ran' => ?_
    rw [TrustRegion.run_budget] at ran' ⊢
    exact TrustRegion.run_truncates le ran'

theorem optimize_truncates_square :
    1 ≤ 1 ∧ 1 ≤ 3 ∧
    (∃ result longer,
      (Id.run (Lbfgs.optimize Square.objective .defaults (.whole 1)
        ⟨.uninitialized, 0, 0, 0, ⟨10, [], [], []⟩⟩ (.ofVector #v[(3.0 : Float)])
        { budget := some 1, isTrajectory := true })).result = .ok result ∧
      (Id.run (Lbfgs.optimize Square.objective .defaults (.whole 1)
        ⟨.uninitialized, 0, 0, 0, ⟨10, [], [], []⟩⟩ (.ofVector #v[(3.0 : Float)])
        { budget := some 3, isTrajectory := true })).result = .ok longer ∧
      result.Truncates 1 longer) ∧
    ∃ result longer,
      (Id.run (TrustRegion.optimize Square.objective
        { TrustRegion.Config.defaults with method := .dogleg } (.whole 1) (.create .defaults)
        (.ofVector #v[(3.0 : Float)]) { budget := some 1, isTrajectory := true })).result =
          .ok result ∧
      (Id.run (TrustRegion.optimize Square.objective
        { TrustRegion.Config.defaults with method := .dogleg } (.whole 1) (.create .defaults)
        (.ofVector #v[(3.0 : Float)]) { budget := some 3, isTrajectory := true })).result =
          .ok longer ∧
      result.Truncates 1 longer := by
  obtain ⟨lines, region⟩ := optimize_truncates (Square.objective : Objective Id Float 1)
    { isTrajectory := true } (.whole 1) (.ofVector #v[3.0]) (le_refl 1) (show 1 ≤ 3 by omega)
  refine ⟨le_rfl, by omega, ?_, ?_⟩
  · obtain ⟨longer, ok'⟩ := exists_of_toBool (x := (Id.run (Lbfgs.optimize Square.objective
      .defaults (.whole 1) ⟨.uninitialized, 0, 0, 0, ⟨10, [], [], []⟩⟩ (.ofVector #v[(3.0 : Float)])
      { budget := some 3, isTrajectory := true })).result) (by decide +kernel)
    obtain ⟨result, ok, truncates, _⟩ := lines _ _ longer ok'
    exact ⟨result, longer, ok, ok', truncates⟩
  · obtain ⟨longer, ok'⟩ := exists_of_toBool (x := (Id.run (TrustRegion.optimize Square.objective
      { TrustRegion.Config.defaults with method := .dogleg } (.whole 1) (.create .defaults)
      (.ofVector #v[(3.0 : Float)]) { budget := some 3, isTrajectory := true })).result)
      (by decide +kernel)
    obtain ⟨result, ok, truncates, _⟩ := region _ _ longer ok'
    exact ⟨result, longer, ok, ok', truncates⟩

end Descent
