import Descent.Proofs.Lbfgs.Iteration
import Descent.Proofs.LineSearch.Decrease
import Descent.Proofs.Square
/-!
# Descent of a run

Every completed iteration decreases the value by at least the share of its slope that the
settings ask for, so the values along a run fall strictly.  Only the value at the start must
be finite; elsewhere it may be infinite or no number, and the gradient may be any function.
-/

namespace Descent.Lbfgs

open RunM Extended

variable {n : Nat} {value : Vector Extended n → Extended}
  {gradient : Vector Extended n → Vector Extended n} {c : Config Extended}

/-- What a completed iteration does: it makes a positive step along a direction of descent,
to a finite value that is low enough. -/
structure Iteration.Descends (value : Vector Extended n → Extended)
    (gradient : Vector Extended n → Vector Extended n) (decrease : Extended)
    (iteration : Iteration Extended n) : Prop where
  moves : iteration.target.location =
    iteration.source.location + iteration.move.step * iteration.move.direction
  finite : Scalar.isFinite (value iteration.target.location) = true
  step_pos : 0 < iteration.move.step
  slope_neg : dot (gradient iteration.source.location) iteration.move.direction < 0
  le_bound : value iteration.target.location ≤ value iteration.source.location +
    decrease * iteration.move.step *
      dot (gradient iteration.source.location) iteration.move.direction
  bound_lt : value iteration.source.location + decrease * iteration.move.step *
      dot (gradient iteration.source.location) iteration.move.direction <
    value iteration.source.location

theorem Config.decrease_eq (valid : c.check = .ok ()) :
    ∃ share : ℝ, c.decrease = real share ∧ 0 < share := by
  unfold Config.check at valid
  split_ifs at valid with _ _ constants
  obtain ⟨decrease_pos, decrease_lt, _⟩ := constants
  cases share : c.decrease with
  | real share' =>
      rw [share] at decrease_pos
      exact ⟨share', rfl, decrease_pos⟩
  | posInf =>
      rw [share] at decrease_lt
      exact decrease_lt.elim
  | negInf | nan =>
      rw [share] at decrease_pos
      exact decrease_pos.elim

/-- A move that a search has found decreases the value enough. -/
theorem Found.decreases (valid : c.check = .ok ()) {x : Vector Extended n}
    (finite : Scalar.isFinite (value x) = true) {move : Move Extended n}
    (found : Found value gradient c (.at value gradient x) move) :
    SufficientDecrease (fun step => value (x + step * move.direction)) (value x) c.decrease
      (dot (gradient x) move.direction) move.step := by
  obtain ⟨share, decrease_eq, decrease_pos⟩ := Config.decrease_eq valid
  obtain ⟨v, value_eq⟩ := eq_real_of_isFinite finite
  rw [value_eq, decrease_eq]
  cases found with
  | wolfe evaluations searched =>
      rw [Point.at, value_eq] at searched
      have suits : c.wolfe.Suits share (1.0 : ℝ) (1e10 : ℝ) :=
        ⟨decrease_eq, decrease_pos, rfl, by norm_num, rfl, by norm_num⟩
      exact Wolfe.search_decreases suits searched
  | armijo evaluations searched =>
      rw [Point.at, value_eq] at searched
      exact Armijo.search_decreases decrease_eq decrease_pos rfl (by norm_num) rfl (by norm_num)
        searched

section Runs

variable {name : String} {hessian : Vector Extended n → SquareMatrix Extended n}
  {options : RunOptions} {limit : Nat} {x : Vector Extended n} {s : State Extended n}
  {done : List (Iteration Extended n)} {r r' : Run (State Extended n) Extended n}
  {p q : Point Extended n}

theorem iteration_descends (valid : c.check = .ok ()) {r₁ : Run (State Extended n) Extended n}
    {move : Move Extended n} (finite : Scalar.isFinite (value x) = true)
    (chosen : outcome (chooseMove (.ofFunctions name value gradient hessian) c
      (.at value gradient x)) r = (.ok (.ok move), r₁))
    (followed : outcome (follow (.ofFunctions name value gradient hessian) c options
      (.at value gradient x) move) r₁ = (.ok q, r')) :
    Iteration.Descends value gradient c.decrease ⟨.at value gradient x, move, q⟩ := by
  obtain ⟨_, _, chosen', _, found⟩ :=
    chooseMove_finds name value gradient hessian c (.at value gradient x) r
  rw [chosen] at chosen'
  cases chosen'
  have decreases := (found move rfl).decreases valid finite
  obtain ⟨rfl, _⟩ := follow_eq_ok followed
  exact ⟨rfl, decreases.finite, decreases.step_pos, decreases.slope_neg, decreases.le_bound,
    decreases.bound_lt⟩

/-- What a run from a finite value keeps: it stands at the newest location, with a finite
value, every iteration has decreased the value enough, and so the values fall. -/
structure Descending (value : Vector Extended n → Extended)
    (gradient : Vector Extended n → Vector Extended n) (decrease : Extended)
    (x : Vector Extended n) (done : List (Iteration Extended n)) (p : Point Extended n) :
    Prop where
  newest : ∃ older, visited x done = p.location :: older
  finite : Scalar.isFinite (value p.location) = true
  descends : ∀ iteration ∈ done, iteration.Descends value gradient decrease
  falls : (visited x done).IsChain fun later earlier => value later < value earlier

theorem Reaches.descending (valid : c.check = .ok ()) (finite : Scalar.isFinite (value x) = true)
    (reached : Reaches (.ofFunctions name value gradient hessian) c options limit x s done r p) :
    Descending value gradient c.decrease x done p := by
  induction reached with
  | depart departed =>
      obtain ⟨rfl, _⟩ := depart_eq_ok departed
      exact ⟨⟨[], rfl⟩, finite, by simp, .singleton _⟩
  | @complete done r r₁ r₂ p q move reached _ _ chosen followed ih =>
      rw [reached.point_eq] at chosen followed
      have descends := iteration_descends valid ih.finite chosen followed
      obtain ⟨older, newest⟩ := ih.newest
      refine ⟨⟨visited x done, rfl⟩, descends.finite, ?_, ?_⟩
      · rw [reached.point_eq]
        exact List.forall_mem_cons.mpr ⟨descends, ih.descends⟩
      · change (q.location :: visited x done).IsChain _
        have falls := ih.falls
        rw [newest] at falls ⊢
        exact .cons_cons (Extended.lt_of_le_of_lt descends.le_bound descends.bound_lt) falls

theorem Descending.value_le {decrease : Extended}
    (descending : Descending value gradient decrease x done p) : value p.location ≤ value x := by
  obtain ⟨older, newest⟩ := descending.newest
  have start : x ∈ visited x done := by simp [visited]
  have falls := descending.falls
  rw [newest] at start falls
  exact le_of_isChain descending.finite falls start

/-- Every iteration that a run completes decreases the value enough, so that the values of the
locations it visits fall strictly, those of the trajectory it returns too, and the final value
is at most the first. -/
theorem optimize_descends (valid : c.check = .ok ()) (name : String)
    (value : Vector Extended n → Extended) (gradient : Vector Extended n → Vector Extended n)
    (hessian : Vector Extended n → SquareMatrix Extended n) (options : RunOptions)
    (dimension : Dimension) (start : Tensor Extended) (s : State Extended n)
    (accepted : checkRequest dimension c.iterationCap options.budget start = .ok (x, limit))
    (finite : Scalar.isFinite (value x) = true) :
    (∀ done r p,
      Reaches (.ofFunctions name value gradient hessian) c options limit x s done r p →
      (∀ iteration ∈ done, iteration.Descends value gradient c.decrease) ∧
      (visited x done).Pairwise fun later earlier => value later < value earlier) ∧
    ∀ result, (Id.run (optimize (.ofFunctions name value gradient hessian) c dimension s start
        options)).result = .ok result →
      (∃ done r p,
        Reaches (.ofFunctions name value gradient hessian) c options limit x s done r p ∧
        result.iterations = done.length ∧ result.iterate = p.location) ∧
      result.trajectory.Pairwise (fun earlier later => value later < value earlier) ∧
      result.value = value result.iterate ∧ result.value ≤ value x := by
  constructor
  · intro done r p reached
    have descending := reached.descending valid finite
    exact ⟨descending.descends, List.isChain_iff_pairwise.mp descending.falls⟩
  · intro result ok
    obtain ⟨done, r, p, reached, iterate_eq, value_eq, iterations_eq, trajectory_eq⟩ :=
      optimize_reaches accepted ok
    have descending := reached.descending valid finite
    have same : p.value = value p.location := by
      rw [reached.point_eq]
      rfl
    refine ⟨⟨done, r, p, reached, iterations_eq, iterate_eq⟩, ?_⟩
    rw [trajectory_eq, iterate_eq, value_eq, same]
    refine ⟨?_, rfl, descending.value_le⟩
    split_ifs
    · exact List.pairwise_reverse.mpr (List.isChain_iff_pairwise.mp descending.falls)
    · exact .nil

end Runs

section Square

theorem Config.defaults_check : (Config.defaults : Config Extended).check = .ok () := by
  unfold Config.check Config.defaults defaultGradientTolerance defaultIterationCap
  simp only [zero_def, one_def, ofScientific_def, real_lt, real_le]
  norm_num

def fresh : State Extended 1 := ⟨.uninitialized, 0, 0, 0, ⟨10, [], [], []⟩⟩

theorem eq_singleton {x : Vector Extended 1} {a : Extended} (entry : x[0] = a) : x = #v[a] := by
  ext i hi
  obtain rfl : i = 0 := by omega
  simpa using entry

theorem dot_one (x y : Vector Extended 1) : dot x y = real 0 + x[0] * y[0] := rfl

theorem search_square :
    (Wolfe.search (Ray.along Square.value Square.gradient #v[real 1] #v[real (-1)])
      (Config.defaults : Config Extended).wolfe (some (real 1)) (pure (real (-2)))).run =
      .ok (real 1, 1) := by
  have falls : real (-2) < 0 := by
    rw [zero_def, real_lt]
    norm_num
  have trial : Scalar.smaller (Config.defaults : Config Extended).wolfe.step
      (Config.defaults : Config Extended).wolfe.longest = real 1 := by
    change Scalar.smaller (real 1.0) (real 1e10) = _
    rw [smaller_real]
    norm_num
  have accepted : (Wolfe.extend (Ray.along Square.value Square.gradient #v[real 1] #v[real (-1)])
      ⟨real 1, real (-2), (Config.defaults : Config Extended).wolfe.decrease,
        (Config.defaults : Config Extended).wolfe.curvature⟩
      (Config.defaults : Config Extended).wolfe.longest true ⟨0, real 1⟩ (real 1)).run =
      .accepted (real 1) := by
    simp [Wolfe.extend, Ray.along, Ray.ofFunctions, Square.value, Square.gradient, dot_one,
      Wolfe.Target.tooHigh, Wolfe.Target.isFlat, Config.defaults, Config.wolfe]
    norm_num
  rw [Wolfe.search_known, if_pos falls, trial]
  change Wolfe.lengthen _ _ _ (39 + 1) _ _ _ _ = _
  rw [Wolfe.lengthen_succ, accepted]

theorem reaches_square : ∃ iteration r p,
    Reaches Square.objective .defaults {} 100000 #v[real 1] fresh [iteration] r p := by
  let r₀ : Run (State Extended 1) Extended 1 :=
    ⟨⟨.running, 0, 1, 1, ⟨10, [], [], []⟩⟩, #v[real 1], #[], #[]⟩
  let p : Point Extended 1 := ⟨#v[real 1], real 1, #v[real 2]⟩
  have departed : Reaches Square.objective .defaults {} 100000 #v[real 1] fresh [] r₀ p := by
    have point_eq : p = .at Square.value Square.gradient #v[real 1] := by
      have doubled : Square.gradient #v[real 1] = #v[real 2] :=
        eq_singleton (by simp [Square.gradient]; norm_num)
      simp [p, Point.at, Square.value, dot_one, doubled]
    rw [point_eq]
    exact .depart rfl
  have length : norm p.gradient = real 2 := by
    have root : Real.sqrt 4 = 2 := by
      rw [show (4 : ℝ) = 2 ^ 2 by norm_num, Real.sqrt_sq zero_le_two]
    rw [norm, dot_one]
    change Scalar.sqrt (real 0 + real 2 * real 2) = _
    rw [real_mul, real_add, sqrt_real (by norm_num)]
    norm_num [root]
  have steep : isConverged (norm p.gradient)
      (Config.defaults : Config Extended).gradientTolerance = false := by
    rw [length]
    simp [isConverged, leastTolerance, Config.defaults, defaultGradientTolerance]
    norm_num
  obtain ⟨k, searched⟩ := wolfe_answers "square" Square.value Square.gradient
    Square.hessian #v[real 1] #v[real (-1)] (Config.defaults : Config Extended).wolfe
    (real 1) (real (-2)) r₀
  rw [search_square] at searched
  let r₁ : Run (State Extended 1) Extended 1 :=
    ⟨⟨.running, 0, 2, 1 + k, ⟨10, [], [], []⟩⟩, #v[real 1], #[], #[]⟩
  have chosen : outcome (chooseMove Square.objective .defaults p) r₀ =
      (.ok (.ok ⟨real 1, #v[real (-1)]⟩), r₁) := by
    have direction_eq : searchDirection r₀.state.history p.gradient (real 2) = #v[real (-1)] :=
      eq_singleton (by simp [r₀, p, searchDirection, steepestDescent, CurvatureHistory.size])
    have slope_eq : dot p.gradient #v[real (-1)] = real (-2) := by
      simp [p, dot_one]
    unfold chooseMove lineSearch
    rw [outcome_bind_of_ok outcome_state, length]
    dsimp only
    rw [direction_eq, slope_eq]
    exact outcome_bind_of_ok searched
  obtain ⟨history, stored⟩ : ∃ history, r₁.state.history.record (real 1 * #v[real (-1)])
      (Square.gradient (p.location + real 1 * #v[real (-1)]) - p.gradient)
      (Config.defaults : Config Extended).curvatureThreshold = (history, .ok true) := by
    simp [r₁, p, CurvatureHistory.record, CurvatureHistory.push, Square.gradient, dot_one,
      Config.defaults, quotient, Scalar.isZero]
    norm_num
  obtain ⟨q, r₂, followed⟩ : ∃ q r₂,
      outcome (follow Square.objective .defaults {} p ⟨real 1, #v[real (-1)]⟩) r₁ = (.ok q, r₂) :=
    exists_follow stored
  exact ⟨_, _, _, departed.complete (by norm_num) steep chosen followed⟩

theorem optimize_descends_square :
    (Config.defaults : Config Extended).check = .ok () ∧
    checkRequest (.whole 1) (Config.defaults : Config Extended).iterationCap none
      (.ofVector #v[real 1]) = .ok (#v[real 1], 100000) ∧
    ∃ iteration r p,
      Reaches Square.objective .defaults {} 100000 #v[real 1] fresh [iteration] r p ∧
      iteration.Descends Square.value Square.gradient
        (Config.defaults : Config Extended).decrease := by
  have resolved : resolveBudget none (Config.defaults : Config Extended).iterationCap =
      (.ok 100000 : Except (Error Extended) Int) := rfl
  have accepted : checkRequest (.whole 1) (Config.defaults : Config Extended).iterationCap none
      (.ofVector #v[real 1]) = .ok (#v[real 1], 100000) :=
    checkRequest_ofVector (x := #v[real 1]) (by simp) resolved
  have finite : Scalar.isFinite (Square.value #v[real 1]) = true := rfl
  obtain ⟨iteration, r, p, reached⟩ := reaches_square
  have descends := optimize_descends Config.defaults_check "square" Square.value Square.gradient
    Square.hessian {} (.whole 1) (.ofVector #v[real 1]) fresh accepted finite
  exact ⟨Config.defaults_check, accepted, iteration, r, p, reached,
    (descends.1 [iteration] r p reached).1 iteration (List.mem_singleton_self iteration)⟩

end Square

end Descent.Lbfgs
