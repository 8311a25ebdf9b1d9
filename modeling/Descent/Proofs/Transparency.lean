import Descent.Proofs.Consistency
import Descent.Proofs.Current
/-!
# Transparency of debug mode

In debug mode a run checks the gradient where it starts, and within a trust region the Hessian of
each new model.  A check can end a run, and then the derivative is one that fails it; otherwise it
leaves no trace, and the run comes to what it comes to without the checks.
-/

namespace Descent

open RunM

section Checks

variable {α : Type} [Scalar α] {n : Nat}

theorem Objective.exists_gradientError {f : Objective Id α n}
    (values : ∀ x, ∃ value, (f.value x).run.run = .ok value)
    (gradients : ∀ x, ∃ gradient, (f.gradient x).run.run = .ok gradient) {ε : α}
    (positive : Difference.checkStep ε = .ok ()) (x : Vector α n) :
    ∃ error, (f.gradientError x ε).run.run = .ok error := by
  choose value value_eq using values
  obtain ⟨gradient, gradient_eq⟩ := gradients x
  have value_pure (y : Vector α n) : f.value y = pure (value y) := value_eq y
  have gradient_pure : f.gradient x = pure gradient := gradient_eq
  unfold gradientError Difference.gradient
  simp only [value_pure, gradient_pure, pure_bind, positive, Vector.ofFnM_pure]
  exact ⟨_, rfl⟩

theorem Objective.requireConsistent_eq {f : Objective Id α n} {x : Vector α n} {error : α}
    (found : (f.gradientError x Difference.gradientStep).run.run = .ok error) (tolerance : α) :
    (f.requireConsistent x tolerance).run.run = if acceptsError tolerance error then .ok ()
      else .error (.argument (.gradientDisagrees f.name error tolerance)) := by
  unfold requireConsistent
  change ExceptT.bindCont _ (f.gradientError x Difference.gradientStep).run.run = _
  rw [found]
  dsimp only [ExceptT.bindCont]
  split <;> rfl

theorem SquareMatrix.requireSymmetric_eq_error {A : SquareMatrix α n} (positive : 0 < n)
    {tolerance : α} {e : Error α} (refused : A.requireSymmetric tolerance = .error e) :
    A.isSymmetric tolerance = .ok false ∧ e = .argument (.notSymmetric tolerance) := by
  obtain ⟨_, _, largest⟩ := List.exists_cons_of_ne_nil (magnitudes_ne_nil positive A)
  obtain ⟨_, _, deviation⟩ := List.exists_cons_of_ne_nil (magnitudes_ne_nil positive A.deviation)
  unfold requireSymmetric at refused
  cases symmetric : A.isSymmetric tolerance with
  | error e' =>
      unfold isSymmetric at symmetric
      rw [largest, deviation] at symmetric
      cases symmetric
  | ok isSymmetric =>
      rw [symmetric] at refused
      cases isSymmetric with
      | false =>
          cases refused
          exact ⟨rfl, rfl⟩
      | true => cases refused

end Checks

section Agreement

variable {σ α β γ : Type} {n : Nat} {refused refused' : Run σ α n → Error α → Prop}
  {debug plain : RunM Id σ α n β} {r : Run σ α n}

/-- Steps in debug mode beside the same steps without it: from a run they come to the same, or
the former are refused and end with an error there. -/
def Agrees (refused : Run σ α n → Error α → Prop) (debug plain : RunM Id σ α n β)
    (r : Run σ α n) : Prop :=
  outcome debug r = outcome plain r ∨ ∃ e r', outcome debug r = (.error e, r') ∧ refused r' e

namespace Agrees

theorem of_eq (eq : outcome debug r = outcome plain r) : Agrees refused debug plain r := .inl eq

theorem weaken (agrees : Agrees refused debug plain r) (holds : ∀ r e, refused r e → refused' r e) :
    Agrees refused' debug plain r := by
  rcases agrees with same | ⟨e, r', ended, reason⟩
  · exact .inl same
  · exact .inr ⟨e, r', ended, holds r' e reason⟩

theorem bind {debug' plain' : β → RunM Id σ α n γ} (first : Agrees refused debug plain r)
    (rest : ∀ b r', outcome plain r = (.ok b, r') → Agrees refused (debug' b) (plain' b) r') :
    Agrees refused (debug >>= debug') (plain >>= plain') r := by
  rcases first with same | ⟨e, r', ended, reason⟩
  · rcases reached : outcome plain r with ⟨e | b, r'⟩
    · refine .inl ?_
      rw [outcome_bind_of_error reached, outcome_bind_of_error (same.trans reached)]
    · unfold Agrees
      rw [outcome_bind_of_ok reached, outcome_bind_of_ok (same.trans reached)]
      exact rest b r' reached
  · exact .inr ⟨e, r', outcome_bind_of_error ended, reason⟩

theorem check {answer : Except (Error α) Unit} {rest : RunM Id σ α n β}
    {checking : RunM Id σ α n Unit} (made : outcome checking r = (answer, r))
    (fails : ∀ e, answer = .error e → refused r e) :
    Agrees refused (checking >>= fun _ => rest) rest r := by
  rcases answer with e | ⟨⟩
  · exact .inr ⟨e, r, outcome_bind_of_error made, fails e rfl⟩
  · exact .inl (outcome_bind_of_ok made)

end Agrees

variable [Scalar α]

structure RefusesGradient (f : Objective Id α n) (x : Vector α n) (r : Run σ α n) (e : Error α) :
    Prop where
  failed : (f.requireConsistent x Objective.defaultTolerance).run.run = .error e
  iterate_eq : r.iterate = x
  events_eq : r.events = #[]

def RefusesHessian (f : Objective Id α n) (r : Run σ α n) (e : Error α) : Prop :=
  ∃ hessian, (f.hessian r.iterate).run.run = .ok hessian ∧
    hessian.requireSymmetric SquareMatrix.symmetryTolerance = .error e

theorem Call.make_agrees (dimension : Dimension) (cap : Int) (options : RunOptions)
    (start : Tensor α) {s : σ} {debug plain : Nat → Vector α n → RunM Id σ α n (RunResult α n)}
    {refused : Vector α n → Run σ α n → Error α → Prop}
    (agrees : ∀ limit x, Agrees (refused x) (debug limit x) (plain limit x) ⟨s, x, #[], #[]⟩) :
    Id.run (Call.make dimension cap options s start debug) =
        Id.run (Call.make dimension cap options s start plain) ∨
      ∃ x limit r e, checkRequest dimension cap options.budget start = .ok (x, limit) ∧
        refused x r e ∧ Id.run (Call.make dimension cap options s start debug) =
          ⟨.error e, r.state, some r.iterate, r.events⟩ := by
  rcases requested : (checkRequest dimension cap options.budget start :
    Except (Error α) (Vector α n × Nat)) with e | ⟨x, limit⟩
  · left
    rw [Call.make_of_error requested, Call.make_of_error requested]
  · rw [Call.make_of_ok requested, Call.make_of_ok requested]
    rcases agrees limit x with same | ⟨e, r, ended, reason⟩
    · exact .inl (by rw [same])
    · exact .inr ⟨x, limit, r, e, rfl, reason, by rw [ended]⟩

end Agreement

namespace Lbfgs

variable {α : Type} [Scalar α] {n : Nat}

theorem run_agrees (f : Objective Id α n) (c : Config α) (options : RunOptions) (s : State α n)
    (limit : Nat) (x : Vector α n) :
    Agrees (RefusesGradient f x) (run f c { options with isDebug := true } limit x)
      (run f c { options with isDebug := false } limit x) ⟨s, x, #[], #[]⟩ := by
  have prepared : Agrees (RefusesGradient f x) (prepare f { options with isDebug := true } x)
      (prepare f { options with isDebug := false } x) ⟨s, x, #[], #[]⟩ := by
    unfold prepare
    refine Agrees.bind (.of_eq rfl) fun _ r updated => ?_
    cases updated
    exact Agrees.check rfl fun e failed => ⟨failed, rfl, rfl⟩
  unfold run depart
  refine (prepared.bind fun _ _ _ => .of_eq rfl).bind fun p r _ => ?_
  refine Agrees.bind (.of_eq ?_) fun _ _ _ => .of_eq rfl
  apply congrArg (outcome · r)
  apply iterate_congr
  rfl

end Lbfgs

namespace TrustRegion

variable {α : Type} [Scalar α] {n : Nat} {f : Objective Id α n} {c : Config α}
  {options : RunOptions} {limit : Nat} {p : Point α n} {r r' : Run (State α) α n}

theorem refresh_agrees (stands : r.iterate = p.location) :
    Agrees (RefusesHessian f) (refresh f { options with isDebug := true } p)
      (refresh f { options with isDebug := false } p) r := by
  unfold refresh
  cases p.model with
  | some model => exact .of_eq rfl
  | none =>
      refine Agrees.bind (.of_eq rfl) fun model r₁ computed => ?_
      obtain ⟨model_current, kept⟩ := modelAt_eq_ok computed
      have iterate_eq : r₁.iterate = r.iterate := congrArg Standing.iterate kept
      refine Agrees.check rfl fun e failed => ⟨model.hessian, ?_, failed⟩
      rw [iterate_eq, stands]
      exact model_current.hessian_eq

theorem Judges.iterate_eq {model : Model α n} {trial : TrialStep α n} {candidate : α}
    {progress : Progress α n} (stands : r.iterate = p.location)
    (judges : Judges c options p model trial candidate r r' progress) :
    r'.iterate = progress.point.location := by
  cases judges with
  | accepted _ standing_eq => exact congrArg Standing.iterate standing_eq
  | rejected _ _ standing_eq => exact (congrArg Standing.iterate standing_eq).trans stands
  | collapsed _ _ standing_eq => exact (congrArg Standing.iterate standing_eq).trans stands

theorem iterate_agrees (remaining : Nat) (stands : r.iterate = p.location) :
    Agrees (RefusesHessian f) (iterate f c { options with isDebug := true } limit remaining p)
      (iterate f c { options with isDebug := false } limit remaining p) r := by
  induction remaining generalizing p r with
  | zero => exact .of_eq rfl
  | succ remaining ih =>
      unfold iterate
      refine (refresh_agrees stands).bind fun model r₁ refreshed => ?_
      have iterate_eq : r₁.iterate = r.iterate :=
        congrArg Standing.iterate (refresh_cases refreshed).2
      by_cases converged : isConverged (norm model.gradient) c.gradientTolerance = true
      · rw [if_pos converged, if_pos converged]
        exact .of_eq rfl
      · rw [if_neg converged, if_neg converged]
        refine Agrees.bind (.of_eq ?_) fun progress r₂ advanced => ?_
        · apply congrArg (outcome · r₁)
          apply advance_congr
          rfl
        · obtain ⟨_, _, _, _, judges⟩ := judges_of_ok advanced
          have stands' := judges.iterate_eq (iterate_eq.trans stands)
          cases progress with
          | collapsed last => exact .of_eq rfl
          | moved next => exact ih stands'

theorem run_agrees (f : Objective Id α n) (c : Config α) (options : RunOptions) (s : State α)
    (limit : Nat) (x : Vector α n) :
    Agrees (fun r e => RefusesGradient f x r e ∨ RefusesHessian f r e)
      (run f c { options with isDebug := true } limit x)
      (run f c { options with isDebug := false } limit x) ⟨s, x, #[], #[]⟩ := by
  have prepared : Agrees (RefusesGradient f x) (prepare f c { options with isDebug := true } x)
      (prepare f c { options with isDebug := false } x) ⟨s, x, #[], #[]⟩ := by
    unfold prepare
    refine Agrees.bind (.of_eq rfl) fun _ r updated => ?_
    cases updated
    exact Agrees.check rfl fun e failed => ⟨failed, rfl, rfl⟩
  unfold run depart
  refine Agrees.bind (.weaken (.bind prepared fun _ _ _ => .of_eq rfl) fun _ _ => .inl)
    fun p r reached => ?_
  obtain ⟨location_eq, _, _, standing_eq⟩ := departs_of_ok reached
  have iterate_eq : r.iterate = x := congrArg Standing.iterate standing_eq
  refine ((iterate_agrees limit ?_).weaken fun _ _ => .inr).bind fun _ _ _ => .of_eq rfl
  rw [iterate_eq, location_eq]

end TrustRegion

section Calls

variable {σ α : Type} [Scalar α] {n : Nat} {f : Objective Id α n} {x : Vector α n}
  {r : Run σ α n} {e : Error α}

/-- A call that has ended before its first iteration, as the gradient at its start disagrees with
central differences. -/
structure Call.GradientRefused (f : Objective Id α n) (x : Vector α n) (call : Call σ α n) :
    Prop where
  disagrees : ∃ error, (f.gradientError x Difference.gradientStep).run.run = .ok error ∧
    Objective.acceptsError Objective.defaultTolerance error = false ∧
    call.result = .error (.argument (.gradientDisagrees f.name error Objective.defaultTolerance))
  iterate_eq : call.iterate = some x
  events_eq : call.events = #[]

structure Call.HessianRefused (f : Objective Id α n) (call : Call σ α n) : Prop where
  asymmetric : ∃ x hessian, call.iterate = some x ∧ (f.hessian x).run.run = .ok hessian ∧
    hessian.isSymmetric SquareMatrix.symmetryTolerance = .ok false
  result_eq : call.result = .error (.argument (.notSymmetric SquareMatrix.symmetryTolerance))

theorem RefusesGradient.call {error : α} (refuses : RefusesGradient f x r e)
    (found : (f.gradientError x Difference.gradientStep).run.run = .ok error) :
    Call.GradientRefused f x ⟨.error e, r.state, some r.iterate, r.events⟩ := by
  have failed := refuses.failed
  rw [Objective.requireConsistent_eq found] at failed
  by_cases accepted : Objective.acceptsError Objective.defaultTolerance error = true
  · rw [if_pos accepted] at failed
    cases failed
  · rw [if_neg accepted] at failed
    cases failed
    exact ⟨⟨error, found, eq_false_of_ne_true accepted, rfl⟩, congrArg some refuses.iterate_eq,
      refuses.events_eq⟩

theorem RefusesHessian.call (refuses : RefusesHessian f r e) (positive : 0 < n) :
    Call.HessianRefused f ⟨.error e, r.state, some r.iterate, r.events⟩ := by
  obtain ⟨hessian, hessian_eq, failed⟩ := refuses
  obtain ⟨asymmetric, rfl⟩ := SquareMatrix.requireSymmetric_eq_error positive failed
  exact ⟨⟨r.iterate, hessian, rfl, hessian_eq, asymmetric⟩, rfl⟩

end Calls

section Functions

variable {n : Nat}

theorem Dimension.pos_of_positive {α : Type} {dimension : Dimension}
    (valid : (dimension.positive : Except (Error α) Nat) = .ok n) : 0 < n := by
  unfold positive at valid
  cases dimension with
  | whole k =>
      dsimp only at valid
      split at valid
      · cases valid
      · cases valid
        omega
  | real v =>
      dsimp only at valid
      split at valid
      · split at valid
        · cases valid
          omega
        · cases valid
      · cases valid

/-- On a function whose values and gradients never fail debug mode is transparent: a call ends with
the error of a derivative that is refused, or it comes to the same as without debug mode. -/
theorem optimize_transparent (f : Objective Id Float n)
    (values : ∀ x, ∃ value, (f.value x).run.run = .ok value)
    (gradients : ∀ x, ∃ gradient, (f.gradient x).run.run = .ok gradient) (options : RunOptions)
    (dimension : Dimension) (valid : (dimension.positive : Except (Error Float) Nat) = .ok n)
    (start : Tensor Float) :
    (∀ (c : Lbfgs.Config Float) (s : Lbfgs.State Float n) debug plain,
      Id.run (Lbfgs.optimize f c dimension s start { options with isDebug := true }) = debug →
      Id.run (Lbfgs.optimize f c dimension s start { options with isDebug := false }) = plain →
      debug = plain ∨
        ∃ x limit, checkRequest dimension c.iterationCap options.budget start = .ok (x, limit) ∧
          debug.GradientRefused f x) ∧
    ∀ (c : TrustRegion.Config Float) (s : TrustRegion.State Float) debug plain,
      Id.run (TrustRegion.optimize f c dimension s start { options with isDebug := true }) =
        debug →
      Id.run (TrustRegion.optimize f c dimension s start { options with isDebug := false }) =
        plain →
      debug = plain ∨
        (∃ x limit, checkRequest dimension c.iterationCap options.budget start = .ok (x, limit) ∧
          debug.GradientRefused f x) ∨
        debug.HessianRefused f := by
  obtain ⟨⟨⟩, positive⟩ := exists_of_toBool
    (x := Difference.checkStep (Difference.gradientStep : Float)) (by decide +kernel)
  have found := Objective.exists_gradientError values gradients positive
  constructor
  · intro c s debug plain called called'
    rcases Call.make_agrees dimension c.iterationCap options start (Lbfgs.run_agrees f c options s)
      with same | ⟨x, limit, r, e, accepted, refuses, ended⟩
    · exact .inl (called.symm.trans (same.trans called'))
    · obtain ⟨error, error_eq⟩ := found x
      obtain rfl := called.symm.trans ended
      exact .inr ⟨x, limit, accepted, refuses.call error_eq⟩
  · intro c s debug plain called called'
    rcases Call.make_agrees dimension c.iterationCap options start
        (TrustRegion.run_agrees f c options s)
      with same | ⟨x, limit, r, e, accepted, refuses | refuses, ended⟩
    · exact .inl (called.symm.trans (same.trans called'))
    · obtain ⟨error, error_eq⟩ := found x
      obtain rfl := called.symm.trans ended
      exact .inr (.inl ⟨x, limit, accepted, refuses.call error_eq⟩)
    · obtain rfl := called.symm.trans ended
      exact .inr (.inr (refuses.call (Dimension.pos_of_positive valid)))

end Functions

section Square

theorem Call.GradientRefused.isError {σ α : Type} [Scalar α] {n : Nat} {f : Objective Id α n}
    {x : Vector α n} {call : Call σ α n} (refused : call.GradientRefused f x) :
    call.result.toBool = false := by
  obtain ⟨_, _, _, result_eq⟩ := refused.disagrees
  rw [result_eq]
  rfl

theorem Call.HessianRefused.isError {σ α : Type} [Scalar α] {n : Nat} {f : Objective Id α n}
    {call : Call σ α n} (refused : call.HessianRefused f) : call.result.toBool = false := by
  rw [refused.result_eq]
  rfl

theorem optimize_transparent_square :
    (∀ x : Vector Float 1, ∃ value,
      ((Square.objective : Objective Id Float 1).value x).run.run = .ok value) ∧
    (∀ x : Vector Float 1, ∃ gradient,
      ((Square.objective : Objective Id Float 1).gradient x).run.run = .ok gradient) ∧
    (Dimension.positive (.whole 1) : Except (Error Float) Nat) = .ok 1 ∧
    Id.run (Lbfgs.optimize Square.objective .defaults (.whole 1)
        ⟨.uninitialized, 0, 0, 0, ⟨10, [], [], []⟩⟩ (.ofVector #v[(3.0 : Float)])
        { isDebug := true }) =
      Id.run (Lbfgs.optimize Square.objective .defaults (.whole 1)
        ⟨.uninitialized, 0, 0, 0, ⟨10, [], [], []⟩⟩ (.ofVector #v[3.0]) { isDebug := false }) ∧
    Id.run (TrustRegion.optimize Square.objective
        { TrustRegion.Config.defaults with method := .dogleg } (.whole 1) (.create .defaults)
        (.ofVector #v[(3.0 : Float)]) { isDebug := true }) =
      Id.run (TrustRegion.optimize Square.objective
        { TrustRegion.Config.defaults with method := .dogleg } (.whole 1) (.create .defaults)
        (.ofVector #v[3.0]) { isDebug := false }) := by
  have values (x : Vector Float 1) : ∃ value,
      ((Square.objective : Objective Id Float 1).value x).run.run = .ok value := ⟨_, rfl⟩
  have gradients (x : Vector Float 1) : ∃ gradient,
      ((Square.objective : Objective Id Float 1).gradient x).run.run = .ok gradient := ⟨_, rfl⟩
  obtain ⟨lines, region⟩ := optimize_transparent Square.objective values gradients {} (.whole 1) rfl
    (.ofVector #v[3.0])
  refine ⟨values, gradients, rfl, ?_, ?_⟩
  · have returns : (Id.run (Lbfgs.optimize Square.objective .defaults (.whole 1)
        ⟨.uninitialized, 0, 0, 0, ⟨10, [], [], []⟩⟩ (.ofVector #v[(3.0 : Float)])
        { isDebug := true })).result.toBool = true := by decide +kernel
    rcases lines .defaults ⟨.uninitialized, 0, 0, 0, ⟨10, [], [], []⟩⟩ _ _ rfl rfl with
      same | ⟨x, limit, _, refused⟩
    · exact same
    · cases returns.symm.trans refused.isError
  · have returns : (Id.run (TrustRegion.optimize Square.objective
        { TrustRegion.Config.defaults with method := .dogleg } (.whole 1) (.create .defaults)
        (.ofVector #v[(3.0 : Float)]) { isDebug := true })).result.toBool = true := by
      decide +kernel
    rcases region { TrustRegion.Config.defaults with method := .dogleg } (.create .defaults) _ _
        rfl rfl with
      same | ⟨x, limit, _, refused⟩ | refused
    · exact same
    · cases returns.symm.trans refused.isError
    · cases returns.symm.trans refused.isError

end Square

end Descent
