import Descent.Proofs.TrustRegion.Monotone
import Descent.Proofs.TrustRegion.Convergence
/-!
# Rejected steps

A step that is rejected with a ratio shrinks the radius, so only so many are rejected in a row
before the region collapses.  A ratio that is not a number passes neither the test of
acceptance nor that of shrinking: such a step is rejected and the radius stays.  In exact
arithmetic only a run whose value is not finite can meet one.
-/

namespace Descent.TrustRegion

open RunM Extended

variable {n : Nat} {name : String} {value : Vector Extended n → Extended}
  {gradient : Vector Extended n → Vector Extended n}
  {hessian : Vector Extended n → SquareMatrix Extended n} {c : Config ℝ} {options : RunOptions}

section Ratios

variable {ratio : Extended} {radius : Extended} {onBoundary : Bool}

theorem ratio_ne_nan {v candidate predicted : Extended} (finite : Scalar.isFinite v = true) :
    TrustRegion.ratio v candidate predicted ≠ nan := by
  obtain ⟨v, rfl⟩ := eq_real_of_isFinite finite
  unfold TrustRegion.ratio
  split_ifs with meaningful
  · obtain ⟨positive, candidate_finite⟩ := meaningful
    obtain ⟨w, rfl⟩ := eq_real_of_isFinite candidate_finite
    rw [real_sub]
    cases predicted with
    | real decrease =>
        have decrease_pos : 0 < decrease := positive
        rw [real_div decrease_pos.ne']
        simp
    | posInf => simp [HDiv.hDiv, Div.div, div]
    | negInf | nan => exact positive.elim
  · simp

theorem lt_of_not_lt {low high : ℝ} (lt : low < high) (defined : ratio ≠ nan)
    (rejected : ¬ real low < ratio) : ratio < real high := by
  cases ratio with
  | real t => exact (not_lt.mp rejected).trans_lt lt
  | posInf => exact absurd trivial rejected
  | negInf => exact trivial
  | nan => exact absurd rfl defined

theorem nextRadius_of_rejection (inRange : c.InRange) (defined : ratio ≠ nan)
    (rejected : ¬ c.extend.acceptance < ratio) :
    nextRadius c.extend radius ratio onBoundary =
      Scalar.larger (c.extend.shrinkFactor * radius) c.extend.leastRadius :=
  if_pos (lt_of_not_lt inRange.acceptance_lt defined rejected)

theorem nextRadius_nan : nextRadius c.extend radius nan onBoundary = radius := by
  have small : ¬ nan < c.extend.shrinkThreshold := id
  have large : ¬ (c.extend.growThreshold < nan ∧ onBoundary = true) := fun grows => grows.1
  rw [nextRadius, if_neg small, if_neg large]

end Ratios

section Iterations

variable {p : Point Extended n} {ρ : ℝ} {radius radius' : Extended} {trial : TrialStep Extended n}
  {progress : Progress Extended n} {done : List (Iteration Extended n)}

structure Iteration.Shrinks (value : Vector Extended n → Extended) (c : Config Extended)
    (i : Iteration Extended n) : Prop where
  not_isAccepted : ¬ i.IsAccepted value c
  ratio_ne_nan : trialRatio value i.source i.trial ≠ nan

theorem Completes.collapsed_iff {c : Config Extended}
    (completes : Completes value gradient hessian c p radius trial progress radius') :
    (∃ q, progress = .collapsed q) ↔
      ¬ c.acceptance < trialRatio value p trial ∧ radius ≤ c.leastRadius := by
  rw [completes.progress_eq]
  split_ifs with accepted least <;> simp [*]

/-- A radius in range, with as many shrinkings left as the rejections in a row allow. -/
structure Shrinking (value : Vector Extended n → Extended) (c : Config ℝ)
    (done : List (Iteration Extended n)) (ρ : ℝ) (progress : Progress Extended n) : Prop where
  radius_mem : ρ ∈ Set.Icc c.leastRadius c.greatestRadius
  length_le : ∀ block, block <+: done → (∀ i ∈ block, i.Shrinks value c.extend) →
    block.length ≤ c.shrinkings c.leastRadius c.greatestRadius + 1
  length_add_le : ∀ p, progress = .moved p → ∀ block, block <+: done →
    (∀ i ∈ block, i.Shrinks value c.extend) →
    block.length + c.shrinkings c.leastRadius ρ ≤ c.shrinkings c.leastRadius c.greatestRadius

theorem shrinkings_le_greatest (inRange : c.InRange)
    (within : ρ ∈ Set.Icc c.leastRadius c.greatestRadius) :
    c.shrinkings c.leastRadius ρ ≤ c.shrinkings c.leastRadius c.greatestRadius :=
  shrinkings_mono inRange inRange.least_pos (inRange.least_pos.trans_le within.1) within.2

theorem Shrinking.completed (inRange : c.InRange) (shrinking : Shrinking value c done ρ (.moved p))
    (completes : Completes value gradient hessian c.extend p (real ρ) trial progress radius') :
    ∃ ρ', radius' = real ρ' ∧ Shrinking value c
      (⟨p, .at gradient hessian p.location, real ρ, trial, progress.point⟩ :: done) ρ'
      progress := by
  obtain ⟨ratio', onBoundary', next_eq⟩ :=
    exists_nextRadius_eq c ρ (trialRatio value p trial) trial.onBoundary
  have radius_mem : nextRadius c ρ ratio' onBoundary' ∈
      Set.Icc c.leastRadius c.greatestRadius := nextRadius_mem inRange shrinking.radius_mem
  rw [← completes.radius_eq] at next_eq
  refine ⟨_, next_eq, radius_mem, ?_, ?_⟩
  · -- Whatever the newest rejection does to the radius, it adds one to those before it.
    intro block isPrefix rejected
    rcases List.prefix_cons_iff.mp isPrefix with rfl | ⟨tail, rfl, older⟩
    · exact Nat.zero_le _
    · have before := shrinking.length_add_le p rfl tail older (List.forall_mem_cons.mp rejected).2
      rw [List.length_cons]
      omega
  · intro q moved block isPrefix rejected
    rcases List.prefix_cons_iff.mp isPrefix with rfl | ⟨tail, rfl, older⟩
    · rw [List.length_nil, Nat.zero_add]
      exact shrinkings_le_greatest inRange radius_mem
    · obtain ⟨newest, rejected⟩ := List.forall_mem_cons.mp rejected
      have before := shrinking.length_add_le p rfl tail older rejected
      -- A step rejected in the least region would have ended the run.
      have large : c.leastRadius < ρ := by
        by_contra least
        obtain ⟨_, collapsed⟩ :=
          completes.collapsed_iff.mpr ⟨newest.not_isAccepted, not_lt.mp least⟩
        rw [collapsed] at moved
        cases moved
      have shrunk : nextRadius c ρ ratio' onBoundary' =
          max (c.shrinkFactor * ρ) c.leastRadius := by
        have rejection := completes.radius_eq.trans
          (nextRadius_of_rejection inRange newest.ratio_ne_nan newest.not_isAccepted)
        rw [next_eq] at rejection
        exact real.inj (rejection.trans (larger_real _ _))
      have fewer := shrinkings_shrunk_lt inRange le_rfl large
      rw [shrunk, List.length_cons]
      omega

end Iterations

section Runs

variable {limit : Nat} {x : Vector Extended n} {s : State Extended}
  {done : List (Iteration Extended n)} {progress : Progress Extended n}
  {r : Run (State Extended) Extended n}

theorem Reaches.shrinking (inRange : c.InRange)
    (reached : Reaches (.ofFunctions name value gradient hessian) c.extend options limit x s done r
      progress) :
    ∃ ρ, r.state.radius = real ρ ∧ Shrinking value c done ρ progress := by
  refine reached.invariant
    (motive := fun done radius progress => ∃ ρ, radius = real ρ ∧ Shrinking value c done ρ progress)
    ?_ ?_
  · have initial : c.initialRadius ∈ Set.Icc c.leastRadius c.greatestRadius :=
      ⟨inRange.least_le_initial, inRange.initial_le_greatest⟩
    refine ⟨c.initialRadius, rfl, initial, ?_, ?_⟩
    · intro block isPrefix _
      rw [List.prefix_nil.mp isPrefix]
      exact Nat.zero_le _
    · intro _ _ block isPrefix _
      rw [List.prefix_nil.mp isPrefix, List.length_nil, Nat.zero_add]
      exact shrinkings_le_greatest inRange initial
  · rintro _ _ _ _ _ _ ⟨ρ, rfl, shrinking⟩ completes
    exact shrinking.completed inRange completes

theorem Reaches.ratio_ne_nan (inRange : c.InRange) {y : Vector ℝ n} (location : x = embed y)
    (finite : Scalar.isFinite (value x) = true)
    (reached : Reaches (.ofFunctions name value gradient hessian) c.extend options limit x s done r
      progress) :
    ∀ i ∈ done, trialRatio value i.source i.trial ≠ nan := by
  induction reached with
  | depart _ => simp
  | complete before _ _ _ _ _ ih =>
      have stands := (before.descending inRange location finite).finite
      rw [← before.isOf.value_eq] at stands
      exact List.forall_mem_cons.mpr ⟨TrustRegion.ratio_ne_nan stands, ih⟩

theorem Reaches.collapsed_iff
    (reached : Reaches (.ofFunctions name value gradient hessian) c.extend options limit x s done r
      progress) :
    (∃ q, progress = .collapsed q) ↔ ∃ i older, done = i :: older ∧
      ¬ i.IsAccepted value c.extend ∧ i.radius ≤ c.extend.leastRadius := by
  cases done with
  | nil =>
      cases reached
      simp
  | cons i older =>
      rw [reached.completes.collapsed_iff]
      simp [Iteration.IsAccepted]

theorem Ends.stagnation_iff {c : Config Extended} {count : Nat} {ending : Ending Extended}
    (ends : Ends gradient c limit count progress ending) :
    ending.status = .stagnation ↔ ∃ q, progress = .collapsed q := by
  cases ends <;> simp [Ending.status]

/-- A rejection whose ratio is a number or an infinity shrinks the radius, and one whose ratio is
not a number keeps it; the former can follow one another only as often as the greatest radius
has to shrink to become the least, and once more.  A rejection in the least region ends the run,
which then stagnates, and nothing else does.  From a finite value every ratio is a number or an
infinity, as no operation overflows here. -/
theorem optimize_shrinks_on_rejection (valid : c.check = .ok ()) (name : String)
    (value : Vector Extended n → Extended) (gradient : Vector Extended n → Vector Extended n)
    (hessian : Vector Extended n → SquareMatrix Extended n) (options : RunOptions)
    (dimension : Dimension) (start : Tensor Extended) (s : State Extended)
    (accepted : checkRequest dimension c.extend.iterationCap options.budget start =
      .ok (x, limit)) :
    (∀ i older r progress,
      Reaches (.ofFunctions name value gradient hessian) c.extend options limit x s (i :: older) r
        progress →
      ¬ i.IsAccepted value c.extend →
      (trialRatio value i.source i.trial ≠ nan → r.state.radius =
        Scalar.larger (c.extend.shrinkFactor * i.radius) c.extend.leastRadius) ∧
      (trialRatio value i.source i.trial = nan → r.state.radius = i.radius) ∧
      (i.radius ≤ c.extend.leastRadius → ∃ p, progress = .collapsed p)) ∧
    (∀ newer block older r progress,
      Reaches (.ofFunctions name value gradient hessian) c.extend options limit x s
        (newer ++ block ++ older) r progress →
      (∀ i ∈ block, i.Shrinks value c.extend) →
      block.length ≤ sInf {k | c.shrinkFactor ^ k * c.greatestRadius ≤ c.leastRadius} + 1) ∧
    (Scalar.isFinite (value x) = true → ∀ done r progress,
      Reaches (.ofFunctions name value gradient hessian) c.extend options limit x s done r
        progress →
      ∀ i ∈ done, trialRatio value i.source i.trial ≠ nan) ∧
    ∀ result, (Id.run (optimize (.ofFunctions name value gradient hessian) c.extend dimension s
        start options)).result = .ok result →
      ∃ done r progress,
        Reaches (.ofFunctions name value gradient hessian) c.extend options limit x s done r
          progress ∧
        result.iterations = done.length ∧ result.radius = some r.state.radius ∧
        (result.status = .stagnation ↔ ∃ i older, done = i :: older ∧
          ¬ i.IsAccepted value c.extend ∧ i.radius ≤ c.extend.leastRadius) := by
  have inRange := Config.inRange valid
  obtain ⟨y, location⟩ := exists_embed (finite_of_checkRequest accepted)
  refine ⟨?_, ?_, fun finite _ _ _ reached => reached.ratio_ne_nan inRange location finite, ?_⟩
  · intro i older r progress reached rejected
    have completes := reached.completes
    refine ⟨fun defined => ?_, fun undefined => ?_, fun least => ?_⟩
    · rw [completes.radius_eq, nextRadius_of_rejection inRange defined rejected]
    · rw [completes.radius_eq, undefined, nextRadius_nan]
    · exact completes.collapsed_iff.mpr ⟨rejected, least⟩
  · intro newer block older r progress reached rejected
    rw [List.append_assoc] at reached
    obtain ⟨r', progress', before⟩ := reached.of_append
    obtain ⟨ρ, _, shrinking⟩ := before.shrinking inRange
    exact shrinking.length_le block (List.prefix_append _ _) rejected
  · intro result ok
    obtain ⟨done, r, progress, reached, ends, _, _, radius_eq, iterations_eq, _⟩ :=
      optimize_reaches accepted ok
    exact ⟨done, r, progress, reached, iterations_eq, radius_eq,
      ends.stagnation_iff.trans reached.collapsed_iff⟩

/-- Where the gradient misleads on a constant, a run from one shrinks its radius to a quarter. -/
theorem optimize_shrinks_on_rejection_constant :
    ∃ i r progress,
      Reaches (.ofFunctions "square" (fun _ => real 0) Square.gradient Square.hessian)
        (Config.extend .defaults) {} 100000 #v[real 1] (.create (Config.extend .defaults)) [i] r
        progress ∧
      ¬ i.IsAccepted (fun _ => real 0) (Config.extend .defaults) ∧
      i.radius = real 1 ∧ r.state.radius = real 0.25 := by
  have resolved : resolveBudget none (Config.extend .defaults).iterationCap =
      (.ok 100000 : Except (Error Extended) Int) := rfl
  have accepted : checkRequest (.whole 1) (Config.extend .defaults).iterationCap
      ({} : RunOptions).budget (.ofVector #v[real 1]) = .ok (#v[real 1], 100000) :=
    checkRequest_ofVector (x := #v[real 1]) (by simp) resolved
  obtain ⟨i, r, progress, reached, radius_eq, ratio_eq⟩ := reaches_one fun _ => real 0
  have none : ratio (real 0) (real 0) (real 1) = real 0 := by
    simp [ratio]
  rw [none] at ratio_eq
  have rejected : ¬ i.IsAccepted (fun _ => real 0) (Config.extend .defaults) := by
    rw [Iteration.IsAccepted, ratio_eq]
    change ¬ (0.1 : ℝ) < 0
    norm_num
  obtain ⟨shrinks, _⟩ := (optimize_shrinks_on_rejection Config.defaults_check "square"
    (fun _ => real 0) Square.gradient Square.hessian {} (.whole 1) (.ofVector #v[real 1])
    (.create (Config.extend .defaults)) accepted).1 i [] r progress reached rejected
  refine ⟨i, r, progress, reached, rejected, radius_eq, ?_⟩
  rw [shrinks (by simp [ratio_eq]), radius_eq]
  change Scalar.larger (real 0.25 * real 1) (real 1e-10) = real 0.25
  rw [real_mul, larger_real]
  norm_num

end Runs

section Undefined

def partialSquare (x : Vector Float 1) : Float :=
  if Square.value x < 1.0 then Square.value x else 0.0 / 0.0

def narrow : Config Float :=
  { Config.defaults with
    method := .dogleg, leastRadius := 0.25, greatestRadius := 1.0, shrinkFactor := 0.5 }

/-- From one on the partial square, ten steps in a row are rejected within the first radius. -/
theorem optimize_repeats_undefined_rejection :
    narrow.check.toBool = true ∧
    narrow.shrinkFactor * (narrow.shrinkFactor * narrow.greatestRadius) ≤ narrow.leastRadius ∧
    (Id.run (optimize (.ofFunctions "partial square" partialSquare Square.gradient Square.hessian)
        narrow (.whole 1) (.create narrow) (.ofVector #v[1.0])
        { budget := some 10 })).events.toList.filterMap (fun
          | .regionStep iteration _ _ _ radius isAccepted =>
              some (iteration, radius.toBits, isAccepted)
          | _ => none) = (List.range 10).map fun k => (k + 1, (1.0 : Float).toBits, false) := by
  decide +kernel

end Undefined

end Descent.TrustRegion
