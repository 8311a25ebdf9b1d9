import Descent.Proofs.Square
import Descent.Proofs.Subproblem.Feasible
import Descent.Proofs.TrustRegion.Progress
import Descent.Proofs.TrustRegion.Reaches
/-!
# Descent within a trust region

An accepted step lowers the value by more than the share of the predicted decrease that the
settings ask for, and its length is at most the radius; any other step changes nothing.  Only
the value at the start must be finite.  Elsewhere it may be infinite or no number, and the
gradient and the Hessian may be any functions: what they make of the model is accepted only
if the predicted decrease is a positive real number, and then the whole model is real.
-/

namespace Descent.TrustRegion

open RunM Extended

variable {n : Nat}

def Config.extend (c : Config ℝ) : Config Extended where
  method := c.method
  initialRadius := real c.initialRadius
  leastRadius := real c.leastRadius
  greatestRadius := real c.greatestRadius
  acceptance := real c.acceptance
  shrinkThreshold := real c.shrinkThreshold
  growThreshold := real c.growThreshold
  shrinkFactor := real c.shrinkFactor
  growFactor := real c.growFactor
  gradientTolerance := real c.gradientTolerance
  iterationCap := c.iterationCap

section Scalars

variable {c : Config ℝ}

/-- Whatever the ratio, a real radius changes as some real ratio would change it. -/
theorem exists_nextRadius_eq (c : Config ℝ) (radius : ℝ) (ratio : Extended) (onBoundary : Bool) :
    ∃ ratio' onBoundary', nextRadius c.extend (real radius) ratio onBoundary =
      real (nextRadius c radius ratio' onBoundary') := by
  have shrunk : Scalar.larger (c.extend.shrinkFactor * real radius) c.extend.leastRadius =
      real (Scalar.larger (c.shrinkFactor * radius) c.leastRadius) := by
    rw [Scalar.larger_real]
    exact larger_real _ _
  have grown : Scalar.smaller (c.extend.growFactor * real radius) c.extend.greatestRadius =
      real (Scalar.smaller (c.growFactor * radius) c.greatestRadius) := by
    rw [Scalar.smaller_real]
    exact smaller_real _ _
  unfold nextRadius
  rw [shrunk, grown]
  split_ifs
  · exact ⟨c.shrinkThreshold - 1, false, by rw [if_pos (by linarith)]⟩
  · refine ⟨max c.shrinkThreshold (c.growThreshold + 1), true, ?_⟩
    rw [if_neg (not_lt.mpr (le_max_left _ _)), if_pos ⟨lt_max_of_lt_right (by linarith), rfl⟩]
  · exact ⟨c.shrinkThreshold, false, by simp⟩

theorem exists_nextRadius (inRange : c.InRange) {radius : ℝ} (radius_pos : 0 < radius)
    (ratio : Extended) (onBoundary : Bool) :
    ∃ next, 0 < next ∧ nextRadius c.extend (real radius) ratio onBoundary = real next := by
  obtain ⟨ratio', onBoundary', eq⟩ := exists_nextRadius_eq c radius ratio onBoundary
  exact ⟨_, nextRadius_pos inRange radius_pos, eq⟩

theorem lt_of_lt_ratio {share v : ℝ} {candidate predicted : Extended} (share_nonneg : 0 ≤ share)
    (high : real share < ratio (real v) candidate predicted) :
    ∃ w decrease : ℝ, candidate = real w ∧ predicted = real decrease ∧ 0 < decrease ∧
      w < v - share * decrease := by
  unfold ratio at high
  split_ifs at high with meaningful
  · obtain ⟨positive, finite⟩ := meaningful
    obtain ⟨w, rfl⟩ := eq_real_of_isFinite finite
    rw [real_sub] at high
    cases predicted with
    | real decrease =>
        have decrease_pos : 0 < decrease := positive
        rw [real_div decrease_pos.ne', real_lt, lt_div_iff₀ decrease_pos] at high
        exact ⟨w, decrease, rfl, rfl, decrease_pos, by linarith⟩
    | posInf =>
        have negative : share < 0 := high
        exact absurd negative (not_lt.mpr share_nonneg)
    | negInf | nan => exact positive.elim
  · have negative : share < 0 := high
    exact absurd negative (not_lt.mpr share_nonneg)

end Scalars

section Trial

variable {method : SearchMethod} {gradient : Vector Extended n}
  {hessian : SquareMatrix Extended n} {radius : ℝ} {trial : TrialStep Extended n}

theorem predicted_eq_of_solve {radius : Extended}
    (solved : Subproblem.solve method gradient hessian radius = .ok trial) :
    trial.predictedReduction = Subproblem.modelReduction gradient hessian trial.step := by
  unfold Subproblem.solve at solved
  cases checked : Subproblem.checkRadius radius with
  | error e =>
      rw [checked] at solved
      cases solved
  | ok _ =>
      rw [checked] at solved
      cases found : Subproblem.stepOf method gradient hessian radius with
      | error e =>
          rw [found] at solved
          cases solved
      | ok step =>
          rw [found] at solved
          cases solved
          rfl

/-- A step whose predicted decrease is finite is real and lies within the region. -/
theorem exists_step_of_solve (radius_pos : 0 < radius)
    (solved : Subproblem.solve method gradient hessian (real radius) = .ok trial)
    (finite : Scalar.isFinite trial.predictedReduction = true) :
    ∃ step : Vector ℝ n, trial.step = embed step ∧ ‖step‖ ≤ radius := by
  rw [predicted_eq_of_solve solved] at finite
  obtain ⟨g, H, _, rfl, rfl, _⟩ := exists_embed_of_modelReduction finite
  obtain ⟨trial', solved', _, improves⟩ := Subproblem.exists_solve radius_pos method g H
  have image := solve_transfers g H radius method trial' solved'
  rw [solved] at image
  cases image
  exact ⟨trial'.step, rfl, improves.norm_le⟩

end Trial

section Iterations

variable {value : Vector Extended n → Extended} {gradient : Vector Extended n → Vector Extended n}
  {hessian : Vector Extended n → SquareMatrix Extended n} {c : Config ℝ}

structure Iteration.Descends (value : Vector Extended n → Extended) (acceptance : Extended)
    (i : Iteration Extended n) : Prop where
  predicted_pos : 0 < i.trial.predictedReduction
  finite : Scalar.isFinite (value i.target.location) = true
  lt_share : value i.target.location <
    value i.source.location - acceptance * i.trial.predictedReduction
  lt : value i.target.location < value i.source.location
  norm_le : norm (i.target.location - i.source.location) ≤ i.radius

structure Iteration.Stays (i : Iteration Extended n) : Prop where
  location_eq : i.target.location = i.source.location
  value_eq : i.target.value = i.source.value

/-- What a run from a finite value keeps. -/
structure Descending (value : Vector Extended n → Extended) (c : Config ℝ)
    (x : Vector Extended n) (done : List (Iteration Extended n)) (radius : Extended)
    (p : Point Extended n) : Prop where
  radius_pos : ∃ radius', 0 < radius' ∧ radius = real radius'
  location : ∃ y, p.location = embed y
  finite : Scalar.isFinite (value p.location) = true
  descends : ∀ i ∈ done, i.IsAccepted value c.extend → i.Descends value (real c.acceptance)
  stays : ∀ i ∈ done, ¬ i.IsAccepted value c.extend → i.Stays
  newest : ∃ older, visited value c.extend x done = p.location :: older
  falls : (visited value c.extend x done).IsChain fun later earlier => value later < value earlier

variable {p : Point Extended n} {radius : ℝ} {radius' : Extended} {trial : TrialStep Extended n}
  {progress : Progress Extended n} {y : Vector ℝ n} {x : Vector Extended n}
  {done : List (Iteration Extended n)}

/-- An accepted step leads to a real location, within the region and with a lower value. -/
theorem Completes.descends (inRange : c.InRange) (radius_pos : 0 < radius)
    (finite : Scalar.isFinite (value p.location) = true) (location : p.location = embed y)
    (completes : Completes value gradient hessian c.extend p (real radius) trial progress radius')
    (accepted : c.extend.acceptance < trialRatio value p trial) :
    (∃ z, progress.point.location = embed z) ∧
      Iteration.Descends value (real c.acceptance)
        ⟨p, .at gradient hessian p.location, real radius, trial, progress.point⟩ := by
  obtain ⟨v, value_eq⟩ := eq_real_of_isFinite finite
  have high : real c.acceptance <
      ratio (real v) (value (p.location + trial.step)) trial.predictedReduction := by
    rw [← value_eq, ← completes.isOf.value_eq]
    exact accepted
  obtain ⟨w, decrease, candidate_eq, predicted_eq, decrease_pos, falls⟩ :=
    lt_of_lt_ratio inRange.acceptance_nonneg high
  -- The predicted decrease is finite, so the step is that of exact arithmetic.
  have predicted_finite : Scalar.isFinite trial.predictedReduction = true := by
    rw [predicted_eq]
    rfl
  obtain ⟨step, step_eq, norm_le⟩ :=
    exists_step_of_solve radius_pos completes.solved predicted_finite
  have target_eq : progress.point.location = p.location + trial.step := by
    rw [completes.progress_eq, if_pos accepted]
    rfl
  have moved : embed y + embed step - embed y = embed step := by
    rw [embed_add, embed_sub, add_sub_cancel_left]
  have share_nonneg := mul_nonneg inRange.acceptance_nonneg decrease_pos.le
  refine ⟨⟨y + step, ?_⟩, ?_, ?_, ?_, ?_, ?_⟩
  · rw [target_eq, location, step_eq, embed_add]
  · dsimp only
    rw [predicted_eq]
    exact decrease_pos
  · dsimp only
    rw [target_eq, candidate_eq]
    rfl
  · dsimp only
    rw [target_eq, candidate_eq, value_eq, predicted_eq, real_mul, real_sub]
    exact falls
  · dsimp only
    rw [target_eq, candidate_eq, value_eq]
    exact falls.trans_le (sub_le_self v share_nonneg)
  · dsimp only
    rw [target_eq, location, step_eq, moved, norm_embed]
    exact norm_le

theorem Completes.stays {radius : Extended}
    (completes : Completes value gradient hessian c.extend p radius trial progress radius')
    (rejected : ¬ c.extend.acceptance < trialRatio value p trial) :
    Iteration.Stays ⟨p, .at gradient hessian p.location, radius, trial, progress.point⟩ := by
  have progress_eq := completes.progress_eq
  rw [if_neg rejected] at progress_eq
  subst progress_eq
  split_ifs
  · exact ⟨rfl, rfl⟩
  · exact ⟨rfl, rfl⟩

section Kept

variable {i : Iteration Extended n} {radius : Extended}

theorem Descending.accepted (descending : Descending value c x done radius i.source)
    (next : ∃ next, 0 < next ∧ radius' = real next) (target : ∃ z, i.target.location = embed z)
    (accepted : i.IsAccepted value c.extend) (descends : i.Descends value (real c.acceptance)) :
    Descending value c x (i :: done) radius' i.target where
  radius_pos := next
  location := target
  finite := descends.finite
  descends := List.forall_mem_cons.mpr ⟨fun _ => descends, descending.descends⟩
  stays := List.forall_mem_cons.mpr ⟨fun rejected => absurd accepted rejected, descending.stays⟩
  newest := ⟨_, visited_of_isAccepted accepted⟩
  falls := by
    obtain ⟨older, newest⟩ := descending.newest
    have falls := descending.falls
    rw [visited_of_isAccepted accepted]
    rw [newest] at falls ⊢
    exact .cons_cons descends.lt falls

theorem Descending.rejected (descending : Descending value c x done radius i.source)
    (next : ∃ next, 0 < next ∧ radius' = real next) (rejected : ¬ i.IsAccepted value c.extend)
    (stays : i.Stays) : Descending value c x (i :: done) radius' i.target where
  radius_pos := next
  location := by
    rw [stays.location_eq]
    exact descending.location
  finite := by
    rw [stays.location_eq]
    exact descending.finite
  descends :=
    List.forall_mem_cons.mpr ⟨fun accepted => absurd accepted rejected, descending.descends⟩
  stays := List.forall_mem_cons.mpr ⟨fun _ => stays, descending.stays⟩
  newest := by
    rw [visited_of_not_isAccepted rejected, stays.location_eq]
    exact descending.newest
  falls := by
    rw [visited_of_not_isAccepted rejected]
    exact descending.falls

end Kept

theorem Descending.completed {radius : Extended} (inRange : c.InRange)
    (descending : Descending value c x done radius p)
    (completes : Completes value gradient hessian c.extend p radius trial progress radius') :
    Descending value c x
      (⟨p, .at gradient hessian p.location, radius, trial, progress.point⟩ :: done) radius'
      progress.point := by
  obtain ⟨radius, radius_pos, rfl⟩ := descending.radius_pos
  obtain ⟨y, location⟩ := descending.location
  have next := exists_nextRadius inRange radius_pos (trialRatio value p trial) trial.onBoundary
  rw [← completes.radius_eq] at next
  by_cases accepted : c.extend.acceptance < trialRatio value p trial
  · obtain ⟨target, descends⟩ :=
      completes.descends inRange radius_pos descending.finite location accepted
    exact descending.accepted next target accepted descends
  · exact descending.rejected next accepted (completes.stays accepted)

end Iterations

section Runs

variable {name : String} {value : Vector Extended n → Extended}
  {gradient : Vector Extended n → Vector Extended n}
  {hessian : Vector Extended n → SquareMatrix Extended n} {c : Config ℝ} {options : RunOptions}
  {limit : Nat} {x : Vector Extended n} {s : State Extended} {done : List (Iteration Extended n)}
  {progress : Progress Extended n} {r : Run (State Extended) Extended n} {radius : Extended}
  {p : Point Extended n}

theorem Reaches.descending (inRange : c.InRange) {y : Vector ℝ n} (location : x = embed y)
    (finite : Scalar.isFinite (value x) = true)
    (reached : Reaches (.ofFunctions name value gradient hessian) c.extend options limit x s done r
      progress) :
    Descending value c x done r.state.radius progress.point := by
  refine reached.invariant
    (motive := fun done radius progress => Descending value c x done radius progress.point) ?_
    fun descending completes => descending.completed inRange completes
  exact {
    radius_pos := ⟨c.initialRadius, inRange.least_pos.trans_le inRange.least_le_initial, rfl⟩
    location := ⟨y, location⟩
    finite := finite
    descends := by simp
    stays := by simp
    newest := ⟨[], rfl⟩
    falls := .singleton _ }

theorem Descending.value_le (descending : Descending value c x done radius p) :
    value p.location ≤ value x := by
  obtain ⟨older, newest⟩ := descending.newest
  have start : x ∈ visited value c.extend x done := by simp [visited]
  have falls := descending.falls
  rw [newest] at start falls
  exact le_of_isChain descending.finite falls start

/-- Every accepted step of a run lowers the value by more than its share of a positive predicted
decrease and is no longer than the radius; every rejected one changes nothing.  So the values
of the locations that are visited fall strictly, those of the trajectory that is returned too,
and the final value is at most the first. -/
theorem optimize_monotone (valid : c.check = .ok ()) (name : String)
    (value : Vector Extended n → Extended) (gradient : Vector Extended n → Vector Extended n)
    (hessian : Vector Extended n → SquareMatrix Extended n) (options : RunOptions)
    (dimension : Dimension) (start : Tensor Extended) (s : State Extended)
    (accepted : checkRequest dimension c.extend.iterationCap options.budget start = .ok (x, limit))
    (finite : Scalar.isFinite (value x) = true) :
    (∀ done r progress,
      Reaches (.ofFunctions name value gradient hessian) c.extend options limit x s done r
        progress →
      (∀ i ∈ done, (i.IsAccepted value c.extend → i.Descends value (real c.acceptance)) ∧
        (¬ i.IsAccepted value c.extend → i.Stays)) ∧
      (visited value c.extend x done).Pairwise fun later earlier => value later < value earlier) ∧
    ∀ result, (Id.run (optimize (.ofFunctions name value gradient hessian) c.extend dimension s
        start options)).result = .ok result →
      (∃ done r progress,
        Reaches (.ofFunctions name value gradient hessian) c.extend options limit x s done r
          progress ∧
        result.iterations = done.length ∧ result.iterate = progress.point.location) ∧
      result.trajectory.Pairwise (fun earlier later => value later < value earlier) ∧
      result.value = value result.iterate ∧ result.value ≤ value x := by
  have inRange := Config.inRange valid
  obtain ⟨y, location⟩ := exists_embed (finite_of_checkRequest accepted)
  constructor
  · intro done r progress reached
    have descending := reached.descending inRange location finite
    refine ⟨fun i completed => ?_, List.isChain_iff_pairwise.mp descending.falls⟩
    exact ⟨descending.descends i completed, descending.stays i completed⟩
  · intro result ok
    obtain ⟨done, r, progress, reached, _, iterate_eq, value_eq, _, iterations_eq, trajectory_eq⟩ :=
      optimize_reaches accepted ok
    have descending := reached.descending inRange location finite
    refine ⟨⟨done, r, progress, reached, iterations_eq, iterate_eq⟩, ?_⟩
    rw [trajectory_eq, iterate_eq, value_eq, reached.isOf.value_eq]
    refine ⟨?_, rfl, descending.value_le⟩
    split_ifs
    · exact List.pairwise_reverse.mpr (List.isChain_iff_pairwise.mp descending.falls)
    · exact .nil

end Runs

section Square

theorem solve_square : ∃ onBoundary,
    Subproblem.solve .cauchy #v[(2 : ℝ)] #v[#v[2]] 1 = .ok ⟨#v[-1], 1, onBoundary⟩ := by
  have curvature : Subproblem.curvature #v[(2 : ℝ)] #v[#v[2]] = 8 := by
    norm_num [Subproblem.curvature, dot_eq_sum]
  have fraction : Subproblem.cauchyFraction (2 : ℝ) 8 1 = .ok 1 := by
    norm_num [Subproblem.cauchyFraction, bind, Except.bind, quotient_real, pure, Except.pure]
  have scaled : -((1 / 2 : ℝ) • #v[(2 : ℝ)]) = #v[-1] := by
    ext i hi
    obtain rfl : i = 0 := by omega
    norm_num
  have step : Subproblem.stepOf .cauchy #v[(2 : ℝ)] #v[#v[2]] 1 = .ok #v[-1] := by
    norm_num [Subproblem.stepOf, Subproblem.cauchyPoint, norm_singleton, curvature, fraction, bind,
      Except.bind, quotient_real, pure, Except.pure, scaled]
  have predicted : Subproblem.modelReduction #v[(2 : ℝ)] #v[#v[2]] #v[-1] = 1 := by
    norm_num [Subproblem.modelReduction, dot_eq_sum]
  rw [Subproblem.solve_of_stepOf zero_lt_one step, Subproblem.assess, predicted]
  exact ⟨_, rfl⟩

theorem gradient_one : Square.gradient #v[real 1] = embed #v[2] := by
  ext i hi
  obtain rfl : i = 0 := by omega
  norm_num [Square.gradient]

theorem hessian_one : Square.hessian #v[real 1] = embedMatrix #v[#v[2]] := by
  ext i hi j hj
  obtain rfl : i = 0 := by omega
  obtain rfl : j = 0 := by omega
  simp only [Square.hessian, one_def, real_add, getElem_embedMatrix,
    getElem_embed]
  norm_num

theorem reaches_one (value : Vector Extended 1 → Extended) : ∃ i r progress,
    Reaches (.ofFunctions "square" value Square.gradient Square.hessian)
      (Config.extend .defaults) {} 100000 #v[real 1] (.create (Config.extend .defaults)) [i] r
      progress ∧
    i.radius = real 1 ∧ trialRatio value i.source i.trial =
      ratio (value (embed #v[1])) (value (embed #v[0])) (real 1) := by
  obtain ⟨r, departed, first, _⟩ := depart_eq "square" value Square.gradient Square.hessian
    (Config.extend .defaults) {} (r := ⟨.create (Config.extend .defaults), #v[real 1], #[], #[]⟩)
    (x := #v[real 1]) (by simp)
  have start : Reaches (.ofFunctions "square" value Square.gradient Square.hessian)
      (Config.extend .defaults) {} 100000 #v[real 1] (.create (Config.extend .defaults)) [] r
      (.moved ⟨#v[real 1], value #v[real 1], none⟩) := .depart departed
  have first_eq : r.state.radius = real 1 := by
    rw [first]
    norm_num [Config.extend, Config.defaults]
  obtain ⟨onBoundary, solution⟩ := solve_square
  have solved : Subproblem.solve (Config.extend .defaults).method (Square.gradient #v[real 1])
      (Square.hessian #v[real 1]) r.state.radius =
        .ok (TrialStep.embed ⟨#v[-1], 1, onBoundary⟩) := by
    rw [gradient_one, hessian_one, first_eq]
    exact solve_transfers _ _ _ _ _ solution
  have steep : isConverged (norm (Square.gradient #v[real 1]))
      (Config.extend .defaults).gradientTolerance = false := by
    rw [gradient_one, norm_embed, norm_singleton, abs_two]
    simp [isConverged, leastTolerance, Config.extend, Config.defaults, defaultGradientTolerance]
    norm_num
  obtain ⟨progress, r', reached⟩ := start.exists_complete (by norm_num) (by simp) steep solved
  refine ⟨_, r', progress, reached, first_eq, ?_⟩
  have one : #v[real 1] = embed #v[1] := by
    simp [embed]
  have sum : #v[(1 : ℝ)] + #v[-1] = #v[0] := by
    ext i hi
    obtain rfl : i = 0 := by omega
    norm_num
  change ratio (value #v[real 1]) (value (#v[real 1] + embed #v[-1])) (real 1) = _
  rw [one, embed_add, sum]

theorem reaches_square : ∃ i r progress,
    Reaches (.ofFunctions "square" Square.value Square.gradient Square.hessian)
      (Config.extend .defaults) {} 100000 #v[real 1] (.create (Config.extend .defaults)) [i] r
      progress ∧
    i.IsAccepted Square.value (Config.extend .defaults) := by
  obtain ⟨i, r, progress, reached, _, ratio_eq⟩ := reaches_one Square.value
  refine ⟨i, r, progress, reached, ?_⟩
  have before : Square.value (embed #v[1]) = real 1 := by
    rw [Square.value, dot_embed]
    norm_num [dot_eq_sum]
  have after : Square.value (embed #v[0]) = real 0 := by
    rw [Square.value, dot_embed]
    norm_num [dot_eq_sum]
  have full : ratio (real 1) (real 0) (real 1) = real 1 := by
    simp [ratio]
  rw [Iteration.IsAccepted, ratio_eq, before, after, full]
  change (0.1 : ℝ) < 1
  norm_num

theorem optimize_monotone_square :
    (Config.defaults : Config ℝ).check = .ok () ∧
    checkRequest (.whole 1) (Config.extend .defaults).iterationCap none (.ofVector #v[real 1]) =
      .ok (#v[real 1], 100000) ∧
    ∃ i r progress,
      Reaches (.ofFunctions "square" Square.value Square.gradient Square.hessian)
        (Config.extend .defaults) {} 100000 #v[real 1] (.create (Config.extend .defaults)) [i] r
        progress ∧
      i.IsAccepted Square.value (Config.extend .defaults) ∧
      i.Descends Square.value (real (Config.defaults : Config ℝ).acceptance) := by
  have resolved : resolveBudget none (Config.extend .defaults).iterationCap =
      (.ok 100000 : Except (Error Extended) Int) := rfl
  have accepted : checkRequest (.whole 1) (Config.extend .defaults).iterationCap none
      (.ofVector #v[real 1]) = .ok (#v[real 1], 100000) :=
    checkRequest_ofVector (x := #v[real 1]) (by simp) resolved
  have finite : Scalar.isFinite (Square.value #v[real 1]) = true := rfl
  obtain ⟨i, r, progress, reached, isAccepted⟩ := reaches_square
  have monotone := optimize_monotone Config.defaults_check "square" Square.value Square.gradient
    Square.hessian {} (.whole 1) (.ofVector #v[real 1]) (.create (Config.extend .defaults)) accepted
    finite
  obtain ⟨steps, _⟩ := monotone.1 [i] r progress reached
  exact ⟨Config.defaults_check, accepted, i, r, progress, reached, isAccepted,
    (steps i (List.mem_singleton_self i)).1 isAccepted⟩

end Square

end Descent.TrustRegion
