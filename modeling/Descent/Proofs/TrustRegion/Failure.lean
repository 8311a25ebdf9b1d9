import Descent.Proofs.Binary64
import Descent.Proofs.Current
import Descent.Proofs.Subproblem.Failure
import Descent.Proofs.TrustRegion.Reaches
/-!
# Runs that fail

The arithmetic of a subproblem can fail, and nothing else in a run of functions does.  So a call
fails exactly if its run comes to a point where the subproblem fails.  In binary64 the radius is
positive wherever a run comes, also after underflow, and a subproblem fails exactly where a power
or a product in it leaves the range of the numbers.
-/

namespace Descent.TrustRegion

open RunM

section Steps

variable {α : Type} [Scalar α] {n : Nat} {name : String} {value : Vector α n → α}
  {gradient : Vector α n → Vector α n} {hessian : Vector α n → SquareMatrix α n} {c : Config α}
  {options : RunOptions} {limit : Nat} {x : Vector α n} {s : State α}
  {done : List (Iteration α n)} {p : Point α n} {progress : Progress α n}
  {r : Run (State α) α n} {e : Error α}

/-- The rest of a run that may complete some more of at most `limit` iterations. -/
def resume (f : Objective Id α n) (c : Config α) (options : RunOptions) (limit remaining : Nat)
    (p : Point α n) : Steps Id α n (RunResult α n) := do
  let (p, ending) ← iterate f c options limit remaining p
  finish f p ending

/-- A run goes on from wherever it has come. -/
theorem Reaches.resumes {f : Objective Id α n}
    (reached : Reaches f c options limit x s done r progress) :
    ∀ p, progress = .moved p → outcome (run f c options limit x) ⟨s, x, #[], #[]⟩ =
      outcome (resume f c options limit (limit - done.length) p) r := by
  induction reached with
  | depart departed =>
      rintro _ ⟨⟩
      unfold run
      rw [outcome_bind_of_ok departed]
      rfl
  | @complete done _ _ _ _ _ _ _ _ budget refreshed notConverged _ advanced ih =>
      rintro q rfl
      have left : limit - done.length = limit - (done.length + 1) + 1 := by omega
      rw [ih _ rfl, left, List.length_cons]
      unfold resume
      rw [iterate, bind_assoc, outcome_bind_of_ok refreshed]
      simp only [notConverged, Bool.false_eq_true, if_false, bind_assoc]
      rw [outcome_bind_of_ok advanced]

variable (name value gradient hessian options p) in
/-- An iteration whose subproblem fails does nothing else. -/
theorem advance_of_error {model : Model α n}
    (failed : Subproblem.solve c.method model.gradient model.hessian r.state.radius = .error e) :
    outcome (advance (.ofFunctions name value gradient hessian) c options p model) r =
      (.error e, r) := by
  unfold advance
  rw [outcome_bind_of_ok outcome_state]
  exact outcome_bind_of_error (outcome_check_of_eq failed)

/-- A run has come to a point that is not converged, with iterations left, where the subproblem
fails. -/
structure Halts (gradient : Vector α n → Vector α n) (hessian : Vector α n → SquareMatrix α n)
    (c : Config α) (limit count : Nat) (p : Point α n) (radius : α) (e : Error α) : Prop where
  budget : count < limit
  notConverged : isConverged (norm (gradient p.location)) c.gradientTolerance = false
  failed : Subproblem.solve c.method (gradient p.location) (hessian p.location) radius = .error e

section Halting

variable (symmetric : options.isDebug = true →
  ∀ x, (hessian x).requireSymmetric SquareMatrix.symmetryTolerance = .ok ())

include symmetric

theorem Reaches.exists_refresh
    (reached : Reaches (.ofFunctions name value gradient hessian) c options limit x s done r
      (.moved p)) :
    ∃ r', outcome (refresh (.ofFunctions name value gradient hessian) options p) r =
        (.ok (.at gradient hessian p.location), r') ∧
      r'.state.radius = r.state.radius := by
  obtain ⟨r', refreshed, same, _⟩ := refresh_eq name value options (p := p) (r := r)
    reached.isOf.model_eq fun debug => symmetric debug p.location
  exact ⟨r', refreshed, same⟩

theorem Halts.run_fails
    (reached : Reaches (.ofFunctions name value gradient hessian) c options limit x s done r
      (.moved p))
    (halts : Halts gradient hessian c limit done.length p r.state.radius e) :
    (outcome (run (.ofFunctions name value gradient hessian) c options limit x)
      ⟨s, x, #[], #[]⟩).1 = .error e := by
  obtain ⟨budget, notConverged, failed⟩ := halts
  obtain ⟨r₁, refreshed, same⟩ := reached.exists_refresh symmetric
  rw [← same] at failed
  have left : limit - done.length = limit - (done.length + 1) + 1 := by omega
  have looped : outcome (iterate (.ofFunctions name value gradient hessian) c options limit
      (limit - done.length) p) r = (.error e, r₁) := by
    have goes : ¬ isConverged (norm (Model.at gradient hessian p.location).gradient)
        c.gradientTolerance = true := ne_true_of_eq_false notConverged
    rw [left, iterate, outcome_bind_of_ok refreshed, if_neg goes]
    exact outcome_bind_of_error (advance_of_error name value gradient hessian options p failed)
  rw [reached.resumes p rfl, resume, outcome_bind_of_error looped]

theorem exists_halts {remaining : Nat} {r' : Run (State α) α n}
    (reached : Reaches (.ofFunctions name value gradient hessian) c options limit x s done r
      (.moved p))
    (budget : done.length + remaining = limit)
    (failed : outcome (iterate (.ofFunctions name value gradient hessian) c options limit
      remaining p) r = (.error e, r')) :
    ∃ done r p, Reaches (.ofFunctions name value gradient hessian) c options limit x s done r
      (.moved p) ∧ Halts gradient hessian c limit done.length p r.state.radius e := by
  induction remaining generalizing done r p with
  | zero => cases failed
  | succ remaining ih =>
      have before : done.length < limit := by omega
      obtain ⟨r₁, refreshed, same⟩ := reached.exists_refresh symmetric
      rw [iterate, outcome_bind_of_ok refreshed] at failed
      by_cases converged : isConverged (norm (Model.at gradient hessian p.location).gradient)
          c.gradientTolerance = true
      · rw [if_pos converged] at failed
        cases failed
      · rw [if_neg converged] at failed
        have notConverged := eq_false_of_ne_true converged
        rcases solved : Subproblem.solve c.method (Model.at gradient hessian p.location).gradient
          (Model.at gradient hessian p.location).hessian r₁.state.radius with e' | trial
        · rw [outcome_bind_of_error
            (advance_of_error name value gradient hessian options p solved)] at failed
          cases failed
          exact ⟨done, r, p, reached, before, notConverged, same ▸ solved⟩
        · obtain ⟨r₂, advanced, _⟩ := advance_eq name value gradient hessian options
            (p := p) (.at gradient hessian p.location) solved
          have longer := reached.complete before refreshed notConverged solved advanced
          rw [outcome_bind_of_ok advanced] at failed
          have left : (done.length + 1) + remaining = limit := by omega
          split_ifs at failed longer
          · exact ih longer left failed
          · cases failed
          · exact ih longer left failed

/-- A call fails exactly if its run comes to such a point. -/
theorem result_eq_error_iff {dimension : Dimension} {start : Tensor α}
    (accepted : checkRequest dimension c.iterationCap options.budget start = .ok (x, limit))
    (consistent : options.isDebug = true →
      Id.run ((Objective.ofFunctions name value gradient hessian).requireConsistent x
        Objective.defaultTolerance).run = .ok ()) :
    (Id.run (optimize (.ofFunctions name value gradient hessian) c dimension s start
        options)).result = .error e ↔
      ∃ done r p, Reaches (.ofFunctions name value gradient hessian) c options limit x s done r
        (.moved p) ∧ Halts gradient hessian c limit done.length p r.state.radius e := by
  unfold optimize
  rw [Call.make_result accepted]
  constructor
  · intro failed
    obtain ⟨r, departed, _⟩ := depart_eq name value gradient hessian c options
      (r := ⟨s, x, #[], #[]⟩) consistent
    rcases looped : outcome (iterate (.ofFunctions name value gradient hessian) c options limit
      limit ⟨x, value x, none⟩) r with ⟨e' | ⟨q, ending⟩, r₁⟩
    · rw [run, outcome_bind_of_ok departed, outcome_bind_of_error looped] at failed
      cases failed
      exact exists_halts symmetric (.depart departed) (Nat.zero_add _) looped
    · obtain ⟨result, r₂, finished, _⟩ :=
        finish_eq name value gradient hessian (r := r₁) (q := q) ending
      rw [run, outcome_bind_of_ok departed, outcome_bind_of_ok looped, finished] at failed
      cases failed
  · rintro ⟨done, r, p, reached, halts⟩
    exact halts.run_fails symmetric reached

end Halting

end Steps

section Binary64

open Binary64

variable {n : Nat} {name : String} {value : Vector Float n → Float}
  {gradient : Vector Float n → Vector Float n} {hessian : Vector Float n → SquareMatrix Float n}
  {c : Config Float} {options : RunOptions} {limit : Nat} {x : Vector Float n} {s : State Float}

structure Config.Grows (c : Config Float) : Prop where
  least_pos : 0 < c.leastRadius
  greatest_pos : 0 < c.greatestRadius
  initial_pos : ¬ c.initialRadius ≤ 0
  growFactor_large : ¬ c.growFactor ≤ 1

theorem Config.grows (valid : c.check = .ok ()) : c.Grows := by
  unfold Config.check at valid
  split_ifs at valid with radii initial ratios shrink grow tolerance cap
  exact {
    least_pos := radii.1
    greatest_pos := pos_of_lt radii.1 radii.2
    initial_pos := not_le_zero_of_le (not_le_zero_of_pos radii.1) initial.1
    growFactor_large := grow }

/-- A shrunk radius is not below the least one, and a grown one does not underflow. -/
theorem not_nextRadius_le_zero (grows : c.Grows) {radius ratio : Float} {onBoundary : Bool}
    (pos : ¬ radius ≤ 0) : ¬ nextRadius c radius ratio onBoundary ≤ 0 := by
  unfold nextRadius
  split_ifs with shrinks
  · by_cases least : c.shrinkFactor * radius < c.leastRadius
    · rw [Scalar.larger_of_lt least]
      exact not_le_zero_of_pos grows.least_pos
    · rw [Scalar.larger_of_not_lt least]
      exact fun nonpos => least (lt_of_le_zero nonpos grows.least_pos)
  · by_cases greatest : c.greatestRadius < c.growFactor * radius
    · rw [Scalar.smaller_of_lt greatest]
      exact not_le_zero_of_pos grows.greatest_pos
    · rw [Scalar.smaller_of_not_lt greatest]
      exact not_le_zero_mul grows.growFactor_large pos
  · exact pos

theorem Reaches.not_radius_le_zero (grows : c.Grows) {done : List (Iteration Float n)}
    {r : Run (State Float) Float n} {progress : Progress Float n}
    (reached : Reaches (.ofFunctions name value gradient hessian) c options limit x s done r
      progress) :
    ¬ r.state.radius ≤ 0 := by
  refine reached.invariant (motive := fun _ radius _ => ¬ radius ≤ 0) grows.initial_pos ?_
  intro _ _ _ _ _ _ pos completes
  rw [completes.radius_eq]
  exact not_nextRadius_le_zero grows pos

theorem isZero_of_le {a b : Float} (pos : ¬ a ≤ 0) (le : a ≤ b) : Scalar.isZero b = false := by
  simp [Scalar.isZero, not_le_zero_of_le pos le]

/-- The checks of the settings and of the start do not keep arithmetic from failing: a call raises
exactly if its run comes to a point where the guards of the subproblem pass and a power, a product
or a system in it fails all the same.  It raises nothing else, and a run that comes to no such
point returns a result with a terminal status. -/
theorem optimize_fails_iff (valid : c.check = .ok ()) (name : String)
    (value : Vector Float n → Float) (gradient : Vector Float n → Vector Float n)
    (hessian : Vector Float n → SquareMatrix Float n) (options : RunOptions)
    (dimension : Dimension) (start : Tensor Float) (s : State Float)
    (accepted : checkRequest dimension c.iterationCap options.budget start = .ok (x, limit))
    (checks : options.isDebug = true →
      (∀ x, (hessian x).requireSymmetric SquareMatrix.symmetryTolerance = .ok ()) ∧
        Id.run ((Objective.ofFunctions name value gradient hessian).requireConsistent x
          Objective.defaultTolerance).run = .ok ()) :
    (∀ e, (Id.run (optimize (.ofFunctions name value gradient hessian) c dimension s start
        options)).result = .error e ↔
      ∃ done r p,
        Reaches (.ofFunctions name value gradient hessian) c options limit x s done r (.moved p) ∧
        done.length < limit ∧
        isConverged (norm (gradient p.location)) c.gradientTolerance = false ∧
        Subproblem.Fails c.method (gradient p.location) (hessian p.location) r.state.radius e) ∧
    (∀ e, (Id.run (optimize (.ofFunctions name value gradient hessian) c dimension s start
        options)).result = .error e → e = .overflow ∨ e = .divisionByZero ∨ e = .singular) ∧
    ((∀ done r p e,
        Reaches (.ofFunctions name value gradient hessian) c options limit x s done r (.moved p) →
        ¬ Subproblem.Fails c.method (gradient p.location) (hessian p.location) r.state.radius e) →
      ∃ result, (Id.run (optimize (.ofFunctions name value gradient hessian) c dimension s start
        options)).result = .ok result ∧ result.status.isTerminal = true) := by
  have grows := Config.grows valid
  have fails_iff (e) : (Id.run (optimize (.ofFunctions name value gradient hessian) c dimension s
      start options)).result = .error e ↔ _ :=
    result_eq_error_iff (fun debug => (checks debug).1) accepted fun debug => (checks debug).2
  have solve_iff {done r p e} (reached : Reaches (.ofFunctions name value gradient hessian) c
      options limit x s done r (.moved p)) :
      Subproblem.solve c.method (gradient p.location) (hessian p.location) r.state.radius =
          .error e ↔
        Subproblem.Fails c.method (gradient p.location) (hessian p.location) r.state.radius e :=
    Subproblem.solve_eq_error_iff (reached.not_radius_le_zero grows)
      fun _ => isZero_of_le (reached.not_radius_le_zero grows)
  refine ⟨fun e => (fails_iff e).trans ?_, ?_, ?_⟩
  · constructor
    · rintro ⟨done, r, p, reached, budget, notConverged, failed⟩
      exact ⟨done, r, p, reached, budget, notConverged, (solve_iff reached).mp failed⟩
    · rintro ⟨done, r, p, reached, budget, notConverged, fails⟩
      exact ⟨done, r, p, reached, budget, notConverged, (solve_iff reached).mpr fails⟩
  · intro e failed
    obtain ⟨_, _, _, reached, halts⟩ := (fails_iff e).mp failed
    exact ((solve_iff reached).mp halts.failed).eq
  · intro none
    rcases called : (Id.run (optimize (.ofFunctions name value gradient hessian) c dimension s
      start options)).result with e | result
    · obtain ⟨done, r, p, reached, halts⟩ := (fails_iff e).mp called
      exact absurd ((solve_iff reached).mp halts.failed) (none done r p e reached)
    · exact ⟨result, rfl, result.ending.isTerminal_status⟩

theorem optimize_fails_iff_square :
    ({ Config.defaults with method := .dogleg } : Config Float).check = .ok () ∧
    checkRequest (.whole 1) (Config.defaults : Config Float).iterationCap none
      (.ofVector #v[(1.0 : Float)]) = .ok (#v[1.0], 100000) ∧
    (∃ result, (Id.run (optimize Square.objective { Config.defaults with method := .dogleg }
      (.whole 1) (.create .defaults) (.ofVector #v[(1.0 : Float)]) {})).result = .ok result) ∧
    ∀ done r p e, Reaches Square.objective { Config.defaults with method := .dogleg } {} 100000
        #v[(1.0 : Float)] (.create .defaults) done r (.moved p) → done.length < 100000 →
      isConverged (norm (Square.gradient p.location)) defaultGradientTolerance = false →
      ¬ Subproblem.Fails .dogleg (Square.gradient p.location) (Square.hessian p.location)
        r.state.radius e := by
  obtain ⟨⟨⟩, valid⟩ := exists_of_toBool (x := ({ Config.defaults with method := .dogleg } :
    Config Float).check) (by decide +kernel)
  have resolved : resolveBudget none (Config.defaults : Config Float).iterationCap =
      (.ok 100000 : Except (Error Float) Int) := rfl
  have accepted : checkRequest (.whole 1) (Config.defaults : Config Float).iterationCap none
      (.ofVector #v[(1.0 : Float)]) = .ok (#v[1.0], 100000) :=
    checkRequest_ofVector (x := #v[1.0]) (by decide +kernel) resolved
  obtain ⟨result, ok⟩ := exists_of_toBool (x := (Id.run (optimize Square.objective
    { Config.defaults with method := .dogleg } (.whole 1) (.create .defaults)
    (.ofVector #v[(1.0 : Float)]) {})).result) (by decide +kernel)
  refine ⟨valid, accepted, ⟨result, ok⟩, ?_⟩
  intro done r p e reached budget notConverged fails
  have failed := ((optimize_fails_iff valid "square" Square.value Square.gradient Square.hessian {}
    (.whole 1) (.ofVector #v[(1.0 : Float)]) (.create .defaults) accepted (by simp)).1 e).mpr
      ⟨done, r, p, reached, budget, notConverged, fails⟩
  cases ok.symm.trans failed

def ledge (height : Float) (x : Vector Float 1) : Float := if 0 < x.get 0 then height else 0

def isDivisionByZero {β : Type} : Except (Error Float) β → Bool
  | .error .divisionByZero => true
  | _ => false

theorem eq_of_isDivisionByZero {β : Type} {answer : Except (Error Float) β}
    (divides : isDivisionByZero answer = true) : answer = .error .divisionByZero := by
  unfold isDivisionByZero at divides
  split at divides
  · rfl
  · cases divides

/-- From one, where the value, the gradient and the Hessian are finite and positive, the curvature
along the gradient is zero, and the dogleg path divides by it. -/
theorem optimize_divides_by_zero_on_ledge :
    ({ Config.defaults with method := .dogleg } : Config Float).check.toBool = true ∧
    (∀ x, Scalar.isFinite (ledge 1e-5 x) = true) ∧ Scalar.isFinite (1e-315 : Float) = true ∧
    (Id.run (optimize (.ofFunctions "ledge" (ledge 1e-5) (fun x => #v[ledge 1e-5 x])
      fun _ => #v[#v[1e-315]]) { Config.defaults with method := .dogleg } (.whole 1)
      (.create .defaults) (.ofVector #v[1.0]) {})).result = .error .divisionByZero := by
  refine ⟨by decide +kernel, ?_, by decide +kernel, eq_of_isDivisionByZero (by decide +kernel)⟩
  intro x
  unfold ledge
  split_ifs
  · decide +kernel
  · decide +kernel

end Binary64

end Descent.TrustRegion
