import Descent.Proofs.Lbfgs.Reaches
import Descent.Proofs.Square
import Descent.Proofs.TrustRegion.Course
/-!
# Nothing stale is read

Both optimizers carry values and derivatives from one iteration to the next.  Wherever these are
read, and in what is returned, they are those of the objective at the current iterate, whatever
the objective and in whatever order steps are accepted and rejected.
-/

namespace Descent

variable {σ α : Type} {n : Nat} [Scalar α] {f : Objective Id α n} {options : RunOptions}

/-- A result that tells the final iterate of its call, the value and the norm of the gradient
there, and whose trajectory ends there if one is asked for. -/
structure RunResult.IsCurrent (f : Objective Id α n) (options : RunOptions) (call : Call σ α n)
    (result : RunResult α n) : Prop where
  final_eq : call.iterate = some result.iterate
  value_eq : (f.value result.iterate).run.run = .ok result.value
  gradientNorm_eq : ∃ gradient, (f.gradient result.iterate).run.run = .ok gradient ∧
    result.gradientNorm = norm gradient
  getLast?_eq : options.isTrajectory = true → result.trajectory.getLast? = some result.iterate

theorem Lbfgs.Tells.isCurrent {x : Vector α n} {done : List (Iteration α n)} {p : Point α n}
    {r : Run (State α n) α n} {call : Call (State α n) α n} {result : RunResult α n}
    (tells : Tells options x done p r call result) (isCurrent : p.IsCurrent f)
    (visited_eq : visited x done = p.location :: done.map (·.source.location)) :
    result.IsCurrent f options call where
  final_eq := tells.final_eq.trans (congrArg some tells.iterate_eq.symm)
  value_eq := by
    rw [tells.iterate_eq, tells.value_eq]
    exact isCurrent.value_eq
  gradientNorm_eq := by
    rw [tells.iterate_eq]
    exact ⟨_, isCurrent.gradient_eq, tells.gradientNorm_eq⟩
  getLast?_eq asked := by
    rw [tells.trajectory_eq, if_pos asked, visited_eq, List.reverse_cons, List.getLast?_append,
      tells.iterate_eq]
    rfl

theorem TrustRegion.Tells.isCurrent {c : Config α} {done : List (Iteration α n)} {p : Point α n}
    {r : Run (State α) α n} {call : Call (State α) α n} {result : RunResult α n}
    (tells : Tells f p r call result) (carries : Carries f c options done r p) :
    result.IsCurrent f options call where
  final_eq := by rw [tells.final_eq, tells.iterate_eq, carries.iterate_eq]
  value_eq := by
    rw [tells.iterate_eq, tells.value_eq]
    exact carries.isCurrent.value_eq
  gradientNorm_eq := by
    rw [tells.iterate_eq]
    exact tells.gradientNorm_eq
  getLast?_eq asked := by
    rw [tells.trajectory_eq, tells.iterate_eq, Array.getLast?_toList]
    exact carries.path_back asked

/-- Each time an optimizer checks for convergence and computes a step, the value and the gradient
that it reads are those of the objective at the iterate of the run, and within a trust region so is
the Hessian.  A run that returns has come so far in this way, and its result tells the value, the
norm of the gradient and the end of the trajectory at the final iterate. -/
theorem optimize_reads_current (f : Objective Id α n) (options : RunOptions)
    (dimension : Dimension) (start : Tensor α) :
    (∀ (c : Lbfgs.Config α) (s : Lbfgs.State α n),
      (∀ limit x done r p, Lbfgs.Reaches f c options limit x s done r p →
        r.iterate = p.location ∧ (f.value r.iterate).run.run = .ok p.value ∧
        (f.gradient r.iterate).run.run = .ok p.gradient) ∧
      ∀ call result, Id.run (Lbfgs.optimize f c dimension s start options) = call →
        call.result = .ok result →
        result.IsCurrent f options call ∧ ∃ limit x done r p,
          checkRequest dimension c.iterationCap options.budget start = .ok (x, limit) ∧
          Lbfgs.Reaches f c options limit x s done r p ∧
          result.iterations = done.length ∧ result.iterate = r.iterate) ∧
    ∀ (c : TrustRegion.Config α) (s : TrustRegion.State α),
      (∀ limit x done r p model r', TrustRegion.Reaches f c options limit x s done r (.moved p) →
        RunM.outcome (TrustRegion.refresh f options p) r = (.ok model, r') →
        r'.iterate = p.location ∧ (f.value r'.iterate).run.run = .ok p.value ∧
        (f.gradient r'.iterate).run.run = .ok model.gradient ∧
        (f.hessian r'.iterate).run.run = .ok model.hessian) ∧
      ∀ call result, Id.run (TrustRegion.optimize f c dimension s start options) = call →
        call.result = .ok result →
        result.IsCurrent f options call ∧ ∃ limit x done r progress,
          checkRequest dimension c.iterationCap options.budget start = .ok (x, limit) ∧
          TrustRegion.Reaches f c options limit x s done r progress ∧
          result.iterations = done.length ∧ result.iterate = r.iterate := by
  refine ⟨fun c s => ⟨fun limit x done r p reached => ?_, fun call result called ok => ?_⟩,
    fun c s => ⟨fun limit x done r p model r' reached refreshed => ?_,
      fun call result called ok => ?_⟩⟩
  · have carries := reached.carries
    rw [carries.iterate_eq]
    exact ⟨rfl, carries.isCurrent.value_eq, carries.isCurrent.gradient_eq⟩
  · obtain ⟨x, limit, done, r, p, r', accepted, reached, _, tells⟩ := Lbfgs.optimize_ends called ok
    have carries := reached.carries
    exact ⟨tells.isCurrent carries.isCurrent carries.visited_eq, limit, x, done, r, p, accepted,
      reached, tells.iterations_eq, tells.iterate_eq.trans carries.iterate_eq.symm⟩
  · obtain ⟨carries, model_current⟩ := reached.carries.refreshed refreshed
    rw [carries.iterate_eq]
    exact ⟨rfl, carries.isCurrent.value_eq, model_current.gradient_eq, model_current.hessian_eq⟩
  · obtain ⟨x, limit, done, r, progress, r', p, accepted, reached, concludes, tells⟩ :=
      TrustRegion.optimize_concludes called ok
    obtain ⟨carries, _, _, location_eq, _⟩ := reached.carries.concluded concludes
    exact ⟨tells.isCurrent carries, limit, x, done, r, progress, accepted, reached,
      tells.iterations_eq.trans carries.iterations_eq,
      (tells.iterate_eq.trans location_eq).trans reached.carries.iterate_eq.symm⟩

section Square

theorem optimize_reads_current_square :
    (∃ call result,
      Id.run (Lbfgs.optimize Square.objective .defaults (.whole 1)
        ⟨.uninitialized, 0, 0, 0, ⟨10, [], [], []⟩⟩ (.ofVector #v[(1.0 : Float)])
        { isTrajectory := true }) = call ∧
      call.result = .ok result ∧
      result.IsCurrent Square.objective { isTrajectory := true } call) ∧
    ∃ call result,
      Id.run (TrustRegion.optimize Square.objective
        { TrustRegion.Config.defaults with method := .dogleg } (.whole 1) (.create .defaults)
        (.ofVector #v[(1.0 : Float)]) { isTrajectory := true }) = call ∧
      call.result = .ok result ∧
      result.IsCurrent Square.objective { isTrajectory := true } call := by
  obtain ⟨lines, region⟩ := optimize_reads_current (Square.objective : Objective Id Float 1)
    { isTrajectory := true } (.whole 1) (.ofVector #v[1.0])
  constructor
  · obtain ⟨result, ok⟩ := exists_of_toBool (x := (Id.run (Lbfgs.optimize Square.objective .defaults
      (.whole 1) ⟨.uninitialized, 0, 0, 0, ⟨10, [], [], []⟩⟩ (.ofVector #v[(1.0 : Float)])
      { isTrajectory := true })).result) (by decide +kernel)
    exact ⟨_, result, rfl, ok, ((lines _ _).2 _ result rfl ok).1⟩
  · obtain ⟨result, ok⟩ := exists_of_toBool (x := (Id.run (TrustRegion.optimize Square.objective
      { TrustRegion.Config.defaults with method := .dogleg } (.whole 1) (.create .defaults)
      (.ofVector #v[(1.0 : Float)]) { isTrajectory := true })).result) (by decide +kernel)
    exact ⟨_, result, rfl, ok, ((region _ _).2 _ result rfl ok).1⟩

end Square

end Descent
