import Descent.Proofs.Curvature.Positive
import Descent.Proofs.Lbfgs.Safeguard
import Descent.Proofs.LineSearch.Accepted
/-!
# Directions of a run

Every pair that a run stores has a positive product, so its inverse Hessian is positive definite
and the quasi-Newton direction falls wherever the gradient is not zero.  So does steepest descent,
and no search is refused for want of a descent.  The gradient need not be that of the function.
-/

namespace Descent.Lbfgs

open RunM CurvatureHistory

variable {n : Nat} {name : String} {value : Vector ℝ n → ℝ} {gradient : Vector ℝ n → Vector ℝ n}
  {hessian : Vector ℝ n → SquareMatrix ℝ n} {c : Config ℝ} {options : RunOptions}
  {p q : Point ℝ n} {r r' : Run (State ℝ n) ℝ n}

theorem dot_searchDirection_neg {h : CurvatureHistory ℝ (Vector ℝ n)}
    {newestFirst : List (Vector ℝ n × Vector ℝ n)} (holds : Holds h newestFirst) {g : Vector ℝ n}
    (nonzero : g ≠ 0) : dot g (searchDirection h g (norm g)) < 0 := by
  unfold searchDirection
  split_ifs
  · exact dot_steepestDescent_neg nonzero
  · rw [dot_neg_right]
    exact neg_neg_of_pos (holds.dot_applyInverse_pos nonzero)

noncomputable def firstDirection (r : Run (State ℝ n) ℝ n) (p : Point ℝ n) : Vector ℝ n :=
  searchDirection r.state.history p.gradient (norm p.gradient)

variable (name hessian) in
theorem chooseMove_of_accepts {step : ℝ}
    (accepts : Wolfe.Accepts (.along value gradient p.location (firstDirection r p)) c.wolfe
      p.value (dot p.gradient (firstDirection r p)) step) :
    ∃ r', outcome (chooseMove (.ofFunctions name value gradient hessian) c p) r =
        (.ok (.ok ⟨step, firstDirection r p⟩), r') ∧ r'.state.history = r.state.history := by
  have search_eq : ∃ evaluations, Wolfe.search
      (.along value gradient p.location (firstDirection r p)) c.wolfe (some p.value)
      (pure (dot p.gradient (firstDirection r p))) = .ok (step, evaluations) :=
    Wolfe.Accepts.search_eq accepts
  obtain ⟨evaluations, searched⟩ := search_eq
  obtain ⟨found, r', found_eq, chosen, _, history_eq, _⟩ | ⟨failure, _, failed, _⟩ :=
    chooseMove_cases name value gradient hessian c p r
  · cases found_eq.symm.trans searched
    exact ⟨r', chosen, history_eq⟩
  · cases failed.symm.trans searched

theorem move_eq_of_accepts {step : ℝ} {move : Move ℝ n}
    (accepts : Wolfe.Accepts (.along value gradient p.location (firstDirection r p)) c.wolfe
      p.value (dot p.gradient (firstDirection r p)) step)
    (chosen : outcome (chooseMove (.ofFunctions name value gradient hessian) c p) r =
      (.ok (.ok move), r')) : move = ⟨step, firstDirection r p⟩ := by
  obtain ⟨_, chosen', _⟩ := chooseMove_of_accepts name hessian accepts
  cases chosen.symm.trans chosen'
  rfl

/-- A run with a history of positive pairs that has reported no refused search. -/
structure Sound (r : Run (State ℝ n) ℝ n) : Prop where
  holds : ∃ newestFirst, Holds r.state.history newestFirst
  unrefused : ∀ k, Event.searchRetried k .notDescent ∉ r.events

theorem Sound.of_cleared (cleared : ∃ h, r.state.history = CurvatureHistory.clear h)
    (silent : r.events = #[]) : Sound r := by
  obtain ⟨h, eq⟩ := cleared
  exact ⟨⟨[], eq ▸ Holds.clear⟩, by simp [silent]⟩

/-- From where the gradient is not zero a search is made along a direction that falls; if it
fails, the one along steepest descent is too. -/
theorem Sound.chosen (sound : Sound r) (nonzero : p.gradient ≠ 0) :
    ∃ found r', outcome (chooseMove (.ofFunctions name value gradient hessian) c p) r =
        (.ok found, r') ∧ Sound r' ∧
      ∀ failure, found = .error failure → failure.fault ≠ .notDescent := by
  obtain ⟨newestFirst, holds⟩ := sound.holds
  obtain ⟨found, r₁, _, chosen, _, history_eq, events_eq⟩ |
    ⟨failure, r₁, failed, chosen, _, events_eq⟩ :=
    chooseMove_cases name value gradient hessian c p r
  · exact ⟨_, r₁, chosen, ⟨⟨newestFirst, history_eq ▸ holds⟩, events_eq ▸ sound.unrefused⟩,
      by simp⟩
  · -- The search is made again along steepest descent once the history has been cleared.
    have fault_ne := Wolfe.search_fault (dot_searchDirection_neg holds nonzero) failed
    obtain ⟨r₂, guarded, _, history_eq, events_eq'⟩ :=
      safeguard_eq name value gradient hessian c p r₁
    refine ⟨_, r₂, chosen.trans guarded, ⟨⟨[], history_eq ▸ Holds.clear⟩, fun k refused => ?_⟩,
      fun failure' failed' => ?_⟩
    · rw [events_eq', events_eq] at refused
      rcases Array.mem_push.mp refused with earlier | latest
      · exact sound.unrefused k earlier
      · injection latest with _ fault_eq
        exact fault_ne fault_eq.symm
    · have fault_eq := Armijo.search_fault (not_le.mpr (dot_steepestDescent_neg nonzero))
        (eq_error_of_map_eq_error failed')
      simp [fault_eq]

theorem Sound.followed (inRange : c.InRange) (sound : Sound r) {move : Move ℝ n}
    (ok : outcome (follow (.ofFunctions name value gradient hessian) c options p move) r =
      (.ok q, r')) : Sound r' := by
  obtain ⟨newestFirst, holds⟩ := sound.holds
  obtain ⟨_, _, history_eq, _, _, _, events_eq⟩ := follow_eq_ok ok
  refine ⟨⟨_, history_eq ▸ holds.record _ _ inRange.curvatureThreshold_nonneg⟩, fun k refused => ?_⟩
  rw [events_eq] at refused
  rcases Array.mem_push.mp refused with earlier | latest
  · exact sound.unrefused k earlier
  · cases latest

theorem depart_sound {x : Vector ℝ n} {answer : Except (Error ℝ) (Point ℝ n)} {s : State ℝ n}
    (ran : outcome (depart (.ofFunctions name value gradient hessian) options x)
      ⟨s, x, #[], #[]⟩ = (answer, r')) : Sound r' := by
  unfold depart prepare at ran
  simp only [bind_assoc] at ran
  rw [outcome_bind_of_ok (outcome_update _)] at ran
  cases debug : options.isDebug with
  | false =>
      simp only [debug] at ran
      cases ran
      exact .of_cleared ⟨s.history, rfl⟩ rfl
  | true =>
      simp only [debug, if_true, bind_assoc] at ran
      rcases asked : Id.run ((Objective.ofFunctions name value gradient hessian).requireConsistent x
        Objective.defaultTolerance).run with e | ⟨⟨⟩⟩
      · rw [outcome_bind_of_error (outcome_ask_of_eq asked)] at ran
        cases ran
        exact .of_cleared ⟨s.history, rfl⟩ rfl
      · rw [outcome_bind_of_ok (outcome_ask_of_eq asked)] at ran
        cases ran
        exact .of_cleared ⟨s.history, rfl⟩ rfl

section Runs

variable {x : Vector ℝ n} {limit : Nat} {s : State ℝ n}

theorem Reaches.sound (inRange : c.InRange) {done : List (Iteration ℝ n)}
    (reached : Reaches (.ofFunctions name value gradient hessian) c options limit x s done r p) :
    Sound r := by
  induction reached with
  | depart departed => exact depart_sound departed
  | complete _ _ notConverged chosen followed ih =>
      obtain ⟨_, _, chosen', sound, _⟩ :=
        ih.chosen (ne_zero_of_not_converged inRange notConverged)
      rw [chosen] at chosen'
      cases chosen'
      exact sound.followed inRange followed

/-- An iteration whose first search accepts a step is completed along it. -/
theorem Reaches.complete_of_accepts (inRange : c.InRange) {done : List (Iteration ℝ n)}
    (reached : Reaches (.ofFunctions name value gradient hessian) c options limit x s done r p)
    (before : done.length < limit)
    (notConverged : isConverged (norm p.gradient) c.gradientTolerance = false) {step : ℝ}
    (accepts : Wolfe.Accepts (.along value gradient p.location (firstDirection r p)) c.wolfe
      p.value (dot p.gradient (firstDirection r p)) step) :
    ∃ y r', outcome (advance (.ofFunctions name value gradient hessian) c options p) r =
        (.ok (.ok (.at value gradient y)), r') ∧
      Reaches (.ofFunctions name value gradient hessian) c options limit x s
        (⟨p, ⟨step, firstDirection r p⟩, .at value gradient y⟩ :: done) r'
        (.at value gradient y) ∧
      y = p.location + step * firstDirection r p ∧
      r'.state.history = (r.state.history.record (y - p.location) (gradient y - p.gradient)
        c.curvatureThreshold).1 := by
  obtain ⟨r₁, chosen, kept⟩ := chooseMove_of_accepts name hessian accepts
  obtain ⟨y, r', followed⟩ := follow_completes value gradient name hessian options inRange
    ⟨step, firstDirection r p⟩ p.location r₁
  rw [← reached.point_eq] at followed
  have follows := follows_of_ok followed
  have location_eq : y = p.location + step * firstDirection r p := follows.location_eq
  refine ⟨y, r', ?_, reached.complete before notConverged chosen followed, location_eq, ?_⟩
  · unfold advance
    rw [outcome_bind_of_ok chosen]
    dsimp only
    rw [outcome_bind_of_ok followed]
    rfl
  · rw [follows.history_eq, kept, location_eq, add_sub_cancel_left]
    rfl

variable (name value gradient hessian options)

/-- The loop has an end, and no search in it is refused. -/
theorem Sound.iterated (inRange : c.InRange) (limit remaining : Nat) (sound : Sound r) :
    ∃ q ending r', outcome (iterate (.ofFunctions name value gradient hessian) c options limit
        remaining (.at value gradient x)) r = (.ok (q, ending), r') ∧ Sound r' ∧
      ending ≠ .lineSearchFailed .notDescent := by
  induction remaining generalizing x r with
  | zero => exact ⟨_, _, r, rfl, sound, by simp⟩
  | succ remaining ih =>
      unfold iterate
      by_cases converged : isConverged (norm (Point.at value gradient x).gradient)
          c.gradientTolerance = true
      · rw [if_pos converged]
        exact ⟨_, _, r, rfl, sound, by simp⟩
      · obtain ⟨found, r₁, chosen, sound₁, unrefused⟩ := sound.chosen
          (ne_zero_of_not_converged inRange (eq_false_of_ne_true converged))
        rw [if_neg converged]
        unfold advance
        cases found with
        | error failure =>
            rw [bind_assoc, outcome_bind_of_ok chosen]
            refine ⟨_, _, r₁, rfl, sound₁, ?_⟩
            simpa using unrefused failure rfl
        | ok move =>
            obtain ⟨y, r₂, followed⟩ :=
              follow_completes value gradient name hessian options inRange move x r₁
            rw [bind_assoc, outcome_bind_of_ok chosen]
            dsimp only
            rw [bind_assoc, outcome_bind_of_ok followed]
            exact ih (sound₁.followed inRange followed)

variable {name value gradient hessian options}

theorem run_sound (inRange : c.InRange) {answer : Except (Error ℝ) (RunResult ℝ n)}
    (ran : outcome (run (.ofFunctions name value gradient hessian) c options limit x)
      ⟨s, x, #[], #[]⟩ = (answer, r')) :
    Sound r' ∧ ∀ result, answer = .ok result → result.ending ≠ .lineSearchFailed .notDescent := by
  unfold run at ran
  rcases departed : outcome (depart (.ofFunctions name value gradient hessian) options x)
    ⟨s, x, #[], #[]⟩ with ⟨e | p, r₁⟩
  · rw [outcome_bind_of_error departed] at ran
    cases ran
    exact ⟨depart_sound departed, by simp⟩
  · rw [outcome_bind_of_ok departed] at ran
    obtain ⟨rfl, _⟩ := depart_eq_ok departed
    obtain ⟨q, ending, r₂, iterated, sound, unrefused⟩ :=
      (depart_sound departed).iterated name value gradient hessian options inRange limit limit
    rw [outcome_bind_of_ok iterated] at ran
    cases ran
    refine ⟨⟨sound.holds, fun k refused => ?_⟩, ?_⟩
    · rcases Array.mem_push.mp refused with earlier | latest
      · exact sound.unrefused k earlier
      · cases latest
    · rintro result ⟨⟩
      exact unrefused

theorem exists_result (inRange : c.InRange) {dimension : Dimension} {start : Tensor ℝ}
    (accepted : checkRequest dimension c.iterationCap options.budget start = .ok (x, limit))
    (consistent : options.isDebug = true →
      Id.run ((Objective.ofFunctions name value gradient hessian).requireConsistent x
        Objective.defaultTolerance).run = .ok ()) :
    ∃ result, (Id.run (optimize (.ofFunctions name value gradient hessian) c dimension s start
      options)).result = .ok result := by
  obtain ⟨p, r, departed⟩ := exists_depart value gradient name hessian options consistent
    ⟨s, x, #[], #[]⟩
  obtain ⟨q, ending, r', iterated, _⟩ :=
    (depart_sound departed).iterated (x := x) name value gradient hessian options inRange limit
      limit
  obtain ⟨rfl, _⟩ := depart_eq_ok departed
  unfold optimize
  rw [Call.make_result accepted]
  unfold run
  rw [outcome_bind_of_ok departed, outcome_bind_of_ok iterated]
  exact ⟨_, rfl⟩

end Runs

/-- In every iteration above the tolerance both the quasi-Newton direction and steepest descent
fall, so no search of a run is refused for want of a descent: none is reported to be, and no run
ends so. -/
theorem optimize_searches_descents (valid : c.check = .ok ()) (name : String)
    (value : Vector ℝ n → ℝ) (gradient : Vector ℝ n → Vector ℝ n)
    (hessian : Vector ℝ n → SquareMatrix ℝ n) (options : RunOptions) (dimension : Dimension)
    (start : Tensor ℝ) (s : State ℝ n) :
    (∀ limit x done r p,
      Reaches (.ofFunctions name value gradient hessian) c options limit x s done r p →
      isConverged (norm p.gradient) c.gradientTolerance = false →
      dot p.gradient (searchDirection r.state.history p.gradient (norm p.gradient)) < 0 ∧
      dot p.gradient (steepestDescent p.gradient (norm p.gradient)) < 0) ∧
    ∀ call, Id.run (optimize (.ofFunctions name value gradient hessian) c dimension s start
        options) = call →
      (∀ k, Event.searchRetried k .notDescent ∉ call.events) ∧
      ∀ result, call.result = .ok result → result.ending ≠ .lineSearchFailed .notDescent := by
  have inRange := Config.inRange valid
  constructor
  · intro limit x done r p reached notConverged
    obtain ⟨_, holds⟩ := (reached.sound inRange).holds
    have nonzero := ne_zero_of_not_converged inRange notConverged
    exact ⟨dot_searchDirection_neg holds nonzero, dot_steepestDescent_neg nonzero⟩
  · intro call called
    unfold optimize at called
    rcases requested : (checkRequest dimension c.iterationCap options.budget start :
      Except (Error ℝ) (Vector ℝ n × Nat)) with e | ⟨x, limit⟩
    · rw [Call.make_of_error requested] at called
      subst called
      exact ⟨by simp, by simp⟩
    · rw [Call.make_of_ok requested] at called
      rcases ran : outcome (run (.ofFunctions name value gradient hessian) c options limit x)
        ⟨s, x, #[], #[]⟩ with ⟨answer, r'⟩
      rw [ran] at called
      subst called
      obtain ⟨sound, unrefused⟩ := run_sound inRange ran
      exact ⟨sound.unrefused, unrefused⟩

section Square

theorem notConverged_square {a : ℝ} (large : 1 ≤ a) :
    isConverged (norm (Point.at Square.value Square.gradient #v[a]).gradient)
      (Config.defaults : Config ℝ).gradientTolerance = false := by
  have long : ‖#v[a + a]‖ = a + a := by
    rw [norm_singleton, abs_of_pos (by linarith)]
  rw [Point.at, norm_eq_norm, Square.gradient_singleton, long]
  norm_num [isConverged, leastTolerance, Config.defaults, defaultGradientTolerance]
  linarith

theorem along_left (a b : ℝ) : #v[a] + b * #v[(-1 : ℝ)] = #v[a - b] := by
  ext i hi
  obtain rfl : i = 0 := by omega
  simp [sub_eq_add_neg]

theorem steepestDescent_square {a : ℝ} (large : 1 ≤ a) :
    steepestDescent (Square.gradient #v[a]) (norm (Square.gradient #v[a])) = #v[-1] := by
  have long : max |a + a| 1 = a + a := by
    rw [abs_of_pos (by linarith)]
    exact max_eq_left (by linarith)
  rw [Square.gradient_singleton, steepestDescent_eq, norm_singleton, long]
  ext i hi
  obtain rfl : i = 0 := by omega
  have nonzero : a + a ≠ 0 := by linarith
  simp [nonzero]

theorem firstDirection_square {a : ℝ} (large : 1 ≤ a) (r : Run (State ℝ 1) ℝ 1)
    (none : r.state.history.size = 0) :
    firstDirection r (.at Square.value Square.gradient #v[a]) = #v[-1] := by
  rw [firstDirection, searchDirection, if_pos none]
  exact steepestDescent_square large

theorem accepts_square {a : ℝ} (large : 1 ≤ a) (small : a ≤ 10) :
    Wolfe.Accepts (.along Square.value Square.gradient #v[a] #v[-1])
      (Config.defaults : Config ℝ).wolfe (Square.value #v[a]) (dot (Square.gradient #v[a]) #v[-1])
      1 := by
  have value_eq (b : ℝ) : Square.value #v[b] = b ^ 2 := by
    simp [Square.value, dot_eq_sum, sq]
  have slope_eq (b : ℝ) : dot (Square.gradient #v[b]) #v[-1] = -(b + b) := by
    simp [Square.gradient_singleton, dot_eq_sum]
  have trial : Scalar.smaller (Config.defaults : Config ℝ).wolfe.step
      (Config.defaults : Config ℝ).wolfe.longest = 1 := by
    norm_num [Config.wolfe, Wolfe.defaults]
  have low : Wolfe.Target.tooHigh ⟨a ^ 2, -(a + a), (Config.defaults : Config ℝ).wolfe.decrease,
      (Config.defaults : Config ℝ).wolfe.curvature⟩ 1 ((a - 1) ^ 2) = false := by
    refine Bool.or_eq_false_iff.mpr ⟨rfl, decide_eq_false (not_lt.mpr ?_)⟩
    change (a - 1) ^ 2 ≤ a ^ 2 + 1e-4 * 1 * -(a + a)
    linarith
  have flat : Wolfe.Target.isFlat ⟨a ^ 2, -(a + a), (Config.defaults : Config ℝ).wolfe.decrease,
      (Config.defaults : Config ℝ).wolfe.curvature⟩ (-(a - 1 + (a - 1))) = true := by
    refine decide_eq_true ?_
    change |(-(a - 1 + (a - 1)) : ℝ)| ≤ -0.9 * -(a + a)
    rw [abs_neg, abs_of_nonneg (by linarith)]
    linarith
  refine .first ?_ (by decide) trial ?_ ?_
  · rw [slope_eq]
    linarith
  · rw [value_eq, slope_eq, along_left, value_eq]
    exact low
  · rw [slope_eq, along_left, slope_eq]
    exact flat

def unused : State ℝ 1 := ⟨.uninitialized, 0, 0, 0, ⟨10, [], [], []⟩⟩

theorem chooseMove_square {a : ℝ} (large : 1 ≤ a) (small : a ≤ 10) (r : Run (State ℝ 1) ℝ 1)
    (none : r.state.history.size = 0) :
    ∃ r', outcome (chooseMove Square.objective .defaults
        (.at Square.value Square.gradient #v[a])) r = (.ok (.ok ⟨1, #v[-1]⟩), r') ∧
      r'.state.history = r.state.history := by
  have direction_eq := firstDirection_square large r none
  rw [← direction_eq]
  refine chooseMove_of_accepts _ _ ?_
  rw [direction_eq]
  exact accepts_square large small

theorem reaches_two (name : String) (hessian : Vector ℝ 1 → SquareMatrix ℝ 1) : ∃ i r,
    Reaches (.ofFunctions name Square.value Square.gradient hessian) .defaults {} 100000 #v[3]
      unused [i] r (.at Square.value Square.gradient #v[2]) ∧
    r.state.history.size = 1 := by
  let r₀ : Run (State ℝ 1) ℝ 1 := ⟨⟨.running, 0, 1, 1, ⟨10, [], [], []⟩⟩, #v[3], #[], #[]⟩
  have departed : Reaches (.ofFunctions name Square.value Square.gradient hessian) .defaults {}
      100000 #v[3] unused [] r₀ (.at Square.value Square.gradient #v[3]) := .depart rfl
  have large : (1 : ℝ) ≤ 3 := by norm_num
  have direction_eq := firstDirection_square large r₀ rfl
  obtain ⟨y, r, _, reached, location_eq, stored⟩ := departed.complete_of_accepts
    (Config.inRange Config.defaults_valid) (by norm_num) (notConverged_square large)
    (direction_eq ▸ accepts_square large (by norm_num))
  obtain rfl : y = #v[2] := by
    rw [location_eq, direction_eq]
    exact (along_left 3 1).trans (congrArg (fun a : ℝ => #v[a]) (by norm_num))
  refine ⟨_, r, reached, ?_⟩
  have product : dot (#v[2] - #v[(3 : ℝ)]) (Square.gradient #v[2] - Square.gradient #v[3]) = 2 := by
    simp [Square.gradient_singleton, dot_eq_sum]
    norm_num
  have kept : (Config.defaults : Config ℝ).curvatureThreshold < 2 := by
    norm_num [Config.defaults]
  dsimp only [Point.at] at stored
  rw [stored, CurvatureHistory.record, product, push, if_pos kept, quotient_real (by norm_num)]
  rfl

theorem optimize_searches_descents_square : ∃ done r p,
    Reaches Square.objective .defaults {}
      100000 #v[3] unused done r p ∧
    r.state.history.size = 1 ∧
    dot p.gradient (searchDirection r.state.history p.gradient (norm p.gradient)) < 0 := by
  obtain ⟨i, r, reached, size_eq⟩ := reaches_two "square" Square.hessian
  have steep := notConverged_square (a := 2) one_le_two
  obtain ⟨descents, _⟩ := optimize_searches_descents Config.defaults_valid "square" Square.value
    Square.gradient Square.hessian {} (.whole 1) (.ofVector #v[3]) unused
  exact ⟨[i], r, _, reached, size_eq, (descents _ _ _ _ _ reached steep).1⟩

end Square

end Descent.Lbfgs
