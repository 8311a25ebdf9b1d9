import Descent.Proofs.Quadratic
import Descent.Proofs.TrustRegion.Gradients
import Descent.Proofs.TrustRegion.Stagnation
/-!
# Quadratic functions within a trust region

A quadratic function is its own model, so that each step gains exactly what was predicted.  The
ratio is one and above every threshold: all steps are accepted and the radius never shrinks.  A
dogleg step that is the Newton step arrives at the minimizer, where the run ends.
-/

namespace Descent.TrustRegion

open RunM

section Chain

variable {α : Type} [Scalar α] {n : Nat} {f : Objective Id α n} {c : Config α}
  {options : RunOptions} {limit : Nat} {x : Vector α n} {s : State α}
  {done older newer : List (Iteration α n)} {i j : Iteration α n} {r : Run (State α) α n}
  {progress : Progress α n}

theorem Reaches.point_eq_target (reached : Reaches f c options limit x s (i :: done) r progress) :
    progress.point = i.target := by
  cases reached with
  | complete => rfl

theorem Reaches.source_eq (reached : Reaches f c options limit x s (j :: i :: older) r progress) :
    j.source = i.target := by
  cases reached with
  | complete before => exact before.point_eq_target

/-- An iteration that arrives where the gradient is small is the last one. -/
theorem Reaches.newest_of_converged {name : String} {value : Vector α n → α}
    {gradient : Vector α n → Vector α n} {hessian : Vector α n → SquareMatrix α n}
    (reached : Reaches (.ofFunctions name value gradient hessian) c options limit x s
      (newer ++ i :: older) r progress)
    (converged : isConverged (norm (gradient i.target.location)) c.gradientTolerance = true) :
    newer = [] := by
  rcases newer.eq_nil_or_concat with empty | ⟨rest, next, rfl⟩
  · exact empty
  · rw [List.concat_eq_append, List.append_assoc, List.singleton_append] at reached
    obtain ⟨r', progress', before⟩ := reached.of_append
    have notConverged := before.completes.notConverged
    rw [before.source_eq, converged] at notConverged
    cases notConverged

end Chain

variable {n : Nat} {q : Quadratic ℝ n} {c : Config ℝ} {options : RunOptions}

/-- An iteration whose step gains exactly what was predicted, and is made. -/
structure Exact (q : Quadratic ℝ n) (c : Config ℝ) (i : Iteration ℝ n) : Prop where
  predicted_pos : 0 < i.trial.predictedReduction
  gain_eq : q.value i.source.location - q.value i.target.location = i.trial.predictedReduction
  ratio_eq : trialRatio q.value i.source i.trial = 1
  isAccepted : i.IsAccepted q.value c
  location_eq : i.target.location = i.source.location + i.trial.step

/-- The iterations of a run have been exact and their radii have not decreased, up to the radius
that the run has now; it has not collapsed. -/
structure Flows (q : Quadratic ℝ n) (c : Config ℝ) (done : List (Iteration ℝ n)) (radius : ℝ)
    (progress : Progress ℝ n) : Prop where
  radius_mem : radius ∈ Set.Icc c.leastRadius c.greatestRadius
  exact : ∀ i ∈ done, Exact q c i
  radii : (radius :: done.map (·.radius)).Pairwise fun later earlier => earlier ≤ later
  moved : progress = .moved progress.point

section Iterations

variable {p : Point ℝ n} {radius radius' : ℝ} {trial : TrialStep ℝ n} {progress : Progress ℝ n}

theorem Completes.radius_pos {value : Vector ℝ n → ℝ} {gradient : Vector ℝ n → Vector ℝ n}
    {hessian : Vector ℝ n → SquareMatrix ℝ n}
    (completes : Completes value gradient hessian c p radius trial progress radius') :
    0 < radius := by
  have solved := completes.solved
  unfold Subproblem.solve Subproblem.checkRadius at solved
  split_ifs at solved with empty
  · cases solved
  · exact not_le.mp empty

theorem Completes.predicted (inRange : c.InRange)
    (completes : Completes q.value q.gradient (fun _ => q.matrix) c p radius trial progress
      radius') :
    0 < trial.predictedReduction ∧
      trial.predictedReduction =
        Subproblem.modelReduction (q.gradient p.location) q.matrix trial.step := by
  have nonzero : q.gradient p.location ≠ 0 := by
    intro stationary
    have flat : ‖q.gradient p.location‖ ≤ c.threshold := by
      rw [stationary, norm_zero]
      exact (threshold_pos inRange).le
    have notConverged := completes.notConverged
    rw [isConverged_eq_true flat] at notConverged
    cases notConverged
  obtain ⟨trial', solved, predicted_eq, improves⟩ :=
    Subproblem.exists_solve completes.radius_pos c.method (q.gradient p.location) q.matrix
  cases completes.solved.symm.trans solved
  exact ⟨predicted_eq ▸ improves.falls nonzero, predicted_eq⟩

theorem Completes.ratio_eq_one (symmetric : q.matrix.transpose = q.matrix) (inRange : c.InRange)
    (completes : Completes q.value q.gradient (fun _ => q.matrix) c p radius trial progress
      radius') :
    trialRatio q.value p trial = 1 := by
  obtain ⟨predicted_pos, predicted_eq⟩ := completes.predicted inRange
  have gain : p.value - q.value (p.location + trial.step) = trial.predictedReduction := by
    rw [completes.isOf.value_eq, predicted_eq]
    exact Quadratic.value_sub_value_add symmetric p.location trial.step
  rw [trialRatio, ratio, if_pos ⟨predicted_pos, rfl⟩, gain, div_self predicted_pos.ne']

theorem Flows.completed (symmetric : q.matrix.transpose = q.matrix) (inRange : c.InRange)
    {done : List (Iteration ℝ n)} (flows : Flows q c done radius (.moved p))
    (completes : Completes q.value q.gradient (fun _ => q.matrix) c p radius trial progress
      radius') :
    Flows q c
      (⟨p, .at q.gradient (fun _ => q.matrix) p.location, radius, trial, progress.point⟩ :: done)
      radius' progress := by
  obtain ⟨predicted_pos, predicted_eq⟩ := completes.predicted inRange
  have ratio_eq := completes.ratio_eq_one symmetric inRange
  have accepted : c.acceptance < trialRatio q.value p trial := by
    rw [ratio_eq]
    exact inRange.acceptance_lt.trans inRange.shrinkThreshold_lt
  have kept : ¬ trialRatio q.value p trial < c.shrinkThreshold := by
    rw [ratio_eq]
    exact inRange.shrinkThreshold_lt.not_gt
  have grows : radius ≤ radius' := by
    rw [completes.radius_eq]
    exact le_nextRadius inRange flows.radius_mem kept
  have progress_eq := completes.progress_eq
  rw [if_pos accepted] at progress_eq
  have earlier : ∀ older ∈ done.map (·.radius), older ≤ radius :=
    fun _ => List.rel_of_pairwise_cons flows.radii
  refine ⟨?_, ?_, ?_, ?_⟩
  · rw [completes.radius_eq]
    exact nextRadius_mem inRange flows.radius_mem
  · refine List.forall_mem_cons.mpr ⟨⟨predicted_pos, ?_, ratio_eq, accepted, ?_⟩, flows.exact⟩
    · rw [progress_eq, predicted_eq]
      exact Quadratic.value_sub_value_add symmetric p.location trial.step
    · rw [progress_eq]
      rfl
  · rw [List.map_cons]
    refine List.pairwise_cons.mpr ⟨List.forall_mem_cons.mpr ⟨grows, ?_⟩, flows.radii⟩
    exact fun older member => (earlier older member).trans grows
  · rw [progress_eq]
    rfl

/-- Where the Newton step is within the radius, the dogleg step arrives at the stationary
point. -/
theorem Completes.gradient_eq_zero (dogleg : c.method = .dogleg)
    (definite : ∀ v : Vector ℝ n, v ≠ 0 → 0 < dot v (q.matrix.mulVec v))
    (completes : Completes q.value q.gradient (fun _ => q.matrix) c p radius trial progress
      radius')
    {newton : Vector ℝ n} (solves : q.matrix.mulVec newton = -q.gradient p.location)
    (within : ‖newton‖ ≤ radius) :
    q.gradient (p.location + trial.step) = 0 := by
  obtain ⟨newton', solves', step_eq⟩ := Subproblem.doglegStep_of_isPosDef
    (SquareMatrix.isPosDef_iff.mpr definite) (q.gradient p.location) radius
  obtain rfl : newton' = newton := Quadratic.mulVec_injective definite (solves'.trans solves.symm)
  have newton_eq : Subproblem.stepOf .dogleg (q.gradient p.location) q.matrix radius =
      .ok newton' := step_eq.trans (if_pos within)
  have solved := completes.solved
  rw [dogleg, Subproblem.solve_of_stepOf completes.radius_pos newton_eq] at solved
  obtain rfl : Subproblem.assess (q.gradient p.location) q.matrix radius newton' = trial :=
    Except.ok.inj solved
  rw [Quadratic.gradient_add]
  exact (congrArg (q.gradient p.location + ·) solves).trans (add_neg_cancel _)

end Iterations

section Runs

variable {limit : Nat} {x : Vector ℝ n} {s : State ℝ} {done newer older : List (Iteration ℝ n)}
  {i : Iteration ℝ n} {progress : Progress ℝ n} {r : Run (State ℝ) ℝ n}

theorem Reaches.flows (symmetric : q.matrix.transpose = q.matrix) (inRange : c.InRange)
    (reached : Reaches q.objective c options limit x s done r progress) :
    Flows q c done r.state.radius progress := by
  refine reached.invariant (motive := Flows q c) ?_
    fun flows completes => flows.completed symmetric inRange completes
  exact ⟨⟨inRange.least_le_initial, inRange.initial_le_greatest⟩, by simp, by simp, rfl⟩

def Iteration.IsNewton (q : Quadratic ℝ n) (i : Iteration ℝ n) : Prop :=
  ∃ newton, q.matrix.mulVec newton = -q.gradient i.source.location ∧ norm newton ≤ i.radius

theorem Reaches.arrives (symmetric : q.matrix.transpose = q.matrix) (inRange : c.InRange)
    (dogleg : c.method = .dogleg)
    (definite : ∀ v : Vector ℝ n, v ≠ 0 → 0 < dot v (q.matrix.mulVec v))
    (reached : Reaches q.objective c options limit x s (newer ++ i :: older) r progress)
    (isNewton : i.IsNewton q) :
    newer = [] ∧ q.gradient i.target.location = 0 ∧ q.minimizer = .ok i.target.location := by
  obtain ⟨newton, solves, within⟩ := isNewton
  obtain ⟨r', progress', before⟩ := reached.of_append
  have exact := (before.flows symmetric inRange).exact i List.mem_cons_self
  have stationary : q.gradient i.target.location = 0 := by
    rw [exact.location_eq]
    exact before.completes.gradient_eq_zero dogleg definite solves within
  refine ⟨reached.newest_of_converged ?_, stationary,
    Quadratic.minimizer_eq_of_gradient definite stationary⟩
  refine isConverged_eq_true ?_
  rw [stationary, norm_zero]
  exact (threshold_pos inRange).le

theorem Flows.acceptances_eq (flows : Flows q c done r.state.radius progress) :
    acceptances q.value c done = done.length := by
  refine List.countP_eq_length.mpr fun i member => ?_
  exact decide_eq_true (flows.exact i member).isAccepted

theorem Ends.status_ne_stagnation {gradient : Vector ℝ n → Vector ℝ n} {count : Nat}
    {p : Point ℝ n} {ending : Ending ℝ} (ends : Ends gradient c limit count (.moved p) ending) :
    ending.status ≠ .stagnation := by
  cases ends with
  | exhausted | converged => simp [Ending.status]

/-- Within a trust region every iteration on a quadratic function with a symmetric matrix, which
need not be definite, gains exactly what was predicted: its step is accepted, and the radius does
not decrease.  A run does not stagnate, and computes one gradient more than it completes
iterations.  With the dogleg method and a positive definite matrix an iteration whose Newton step
is within its radius is the last one, and arrives at the minimizer. -/
theorem optimize_exact_on_quadratic (symmetric : q.matrix.transpose = q.matrix)
    (valid : c.check = .ok ()) (options : RunOptions) (dimension : Dimension) (start : Tensor ℝ)
    (s : State ℝ)
    (accepted : checkRequest dimension c.iterationCap options.budget start = .ok (x, limit)) :
    (∀ done r progress, Reaches q.objective c options limit x s done r progress →
      (∀ i ∈ done, Exact q c i) ∧
      (r.state.radius :: done.map (·.radius)).Pairwise (fun later earlier => earlier ≤ later) ∧
      (∀ p, progress ≠ .collapsed p) ∧
      (c.method = .dogleg → (∀ v : Vector ℝ n, v ≠ 0 → 0 < dot v (q.matrix.mulVec v)) →
        ∀ newer i older, done = newer ++ i :: older → i.IsNewton q →
        newer = [] ∧ q.gradient i.target.location = 0 ∧ q.minimizer = .ok i.target.location)) ∧
    (∀ result, (Id.run (optimize q.objective c dimension s start options)).result = .ok result →
      result.status ≠ .stagnation ∧ result.gradients = result.iterations + 1 ∧
      ∃ done r progress, Reaches q.objective c options limit x s done r progress ∧
        result.iterations = done.length ∧ result.iterate = progress.point.location ∧
        (c.method = .dogleg → (∀ v : Vector ℝ n, v ≠ 0 → 0 < dot v (q.matrix.mulVec v)) →
          ∀ i ∈ done, i.IsNewton q →
          q.minimizer = .ok result.iterate ∧ result.gradientNorm = 0)) ∧
    ((options.isDebug = true → 0 < n) →
      ∃ result, (Id.run (optimize q.objective c dimension s start options)).result =
        .ok result) := by
  have inRange := Config.inRange valid
  refine ⟨?_, ?_, ?_⟩
  · intro done r progress reached
    have flows := reached.flows symmetric inRange
    refine ⟨flows.exact, flows.radii, ?_, ?_⟩
    · intro p collapsed
      have moved := flows.moved
      rw [collapsed] at moved
      cases moved
    · rintro dogleg definite newer i older rfl isNewton
      exact reached.arrives symmetric inRange dogleg definite isNewton
  · intro result ok
    obtain ⟨done, r, progress, reached, ends, iterations_eq, gradients_eq, iterate_eq, norm_eq⟩ :=
      optimize_gradients accepted ok
    have flows := reached.flows symmetric inRange
    refine ⟨?_, ?_, done, r, progress, reached, iterations_eq, iterate_eq, ?_⟩
    · rw [flows.moved] at ends
      exact ends.status_ne_stagnation
    · rw [gradients_eq, iterations_eq, flows.acceptances_eq, Nat.add_comm]
    · intro dogleg definite i member isNewton
      obtain ⟨newer, older, rfl⟩ := List.append_of_mem member
      obtain ⟨rfl, stationary, minimizer_eq⟩ :=
        reached.arrives symmetric inRange dogleg definite isNewton
      have arrived : progress.point = i.target := reached.point_eq_target
      rw [iterate_eq, norm_eq, arrived, stationary, norm_eq_norm, norm_zero]
      exact ⟨minimizer_eq, rfl⟩
  · intro entries
    refine exists_result Quadratic.name q.value inRange accepted ?_ ?_
    · intro debug _
      exact SquareMatrix.requireSymmetric_eq_ok (entries debug) symmetric
        (by norm_num [SquareMatrix.symmetryTolerance])
    · intro _
      exact Quadratic.requireConsistent_objective symmetric x

theorem optimize_exact_on_square :
    let c : Config ℝ := { Config.defaults with method := .dogleg }
    (∃ i r progress, Reaches Quadratic.square.objective c {} 100000 #v[1] (.create c) [i] r
      progress ∧ Exact Quadratic.square c i ∧ Quadratic.square.minimizer = .ok i.target.location) ∧
    ∃ result, (Id.run (optimize Quadratic.square.objective c (.whole 1) (.create c)
        (.ofVector #v[1]) {})).result = .ok result ∧
      result.status ≠ .stagnation ∧ result.gradients = result.iterations + 1 := by
  intro c
  have symmetric : Quadratic.square.matrix.transpose = Quadratic.square.matrix := by
    rw [Quadratic.square_matrix, SquareMatrix.transpose_scalar]
  have valid : c.check = .ok () := Config.defaults_check
  have accepted : checkRequest (.whole 1) c.iterationCap none (.ofVector #v[(1 : ℝ)]) =
      .ok (#v[1], 100000) :=
    checkRequest_ofVector (x := #v[1]) (fun _ => rfl) (rfl : resolveBudget none _ =
      (.ok 100000 : Except (Error ℝ) Int))
  obtain ⟨iterations, tells, answers⟩ := optimize_exact_on_quadratic symmetric valid {} (.whole 1)
    (.ofVector #v[1]) (.create c) accepted
  constructor
  · have gradient_eq : Quadratic.square.gradient #v[1] = #v[2] := by
      rw [Quadratic.square_gradient]
      ext i hi
      obtain rfl : i = 0 := by omega
      simp
    have steep : c.threshold < ‖Quadratic.square.gradient #v[1]‖ := by
      rw [gradient_eq, norm_singleton, abs_two]
      norm_num [Config.threshold, c, Config.defaults, defaultGradientTolerance]
    have definite : ∀ v : Vector ℝ 1, v ≠ 0 → 0 < dot v (Quadratic.square.matrix.mulVec v) := by
      intro v nonzero
      rw [Quadratic.square_matrix, SquareMatrix.mulVec_scalar, dot_smul_right]
      exact mul_pos two_pos (dot_self_pos nonzero)
    obtain ⟨r, departed, radius_eq, _⟩ := depart_eq Quadratic.name Quadratic.square.value
      Quadratic.square.gradient (fun _ => Quadratic.square.matrix) c {} (x := #v[1])
      (r := ⟨.create c, #v[1], #[], #[]⟩) (by simp)
    have radius_one : r.state.radius = 1 := by
      rw [radius_eq]
      norm_num [c, Config.defaults]
    obtain ⟨trial, solved, _⟩ := Subproblem.exists_solve (radius_one ▸ one_pos) c.method
      (Quadratic.square.gradient #v[1]) Quadratic.square.matrix
    have begun : Reaches Quadratic.square.objective c {} 100000 #v[1] (.create c) [] r
        (.moved ⟨#v[1], Quadratic.square.value #v[1], none⟩) := .depart departed
    obtain ⟨progress, r', reached⟩ :=
      begun.exists_complete (by norm_num) (by simp) (isConverged_eq_false steep) solved
    obtain ⟨exact, _, _, arrives⟩ := iterations _ _ _ reached
    refine ⟨_, r', progress, reached, exact _ List.mem_cons_self,
      (arrives rfl definite [] _ [] rfl ⟨#v[-1], ?_, ?_⟩).2.2⟩
    · dsimp only
      rw [gradient_eq, Quadratic.square_matrix, SquareMatrix.mulVec_scalar]
      ext i hi
      obtain rfl : i = 0 := by omega
      simp
    · dsimp only
      rw [radius_one, norm_eq_norm, norm_singleton]
      norm_num
  · obtain ⟨result, ok⟩ := answers (by simp)
    obtain ⟨status, counted, _⟩ := tells result ok
    exact ⟨result, ok, status, counted⟩

end Runs

end Descent.TrustRegion
