import Descent.Proofs.Independence
import Descent.Proofs.Lbfgs.Motion
import Descent.Proofs.TrustRegion.Motion
import Descent.Proofs.Transparency
/-!
# Equivariance under rigid motions

In exact arithmetic neither optimizer sees the coordinates of its points or the level of its
values.  Only the checks of debug mode do: they go along the axes.
-/

namespace Descent

open RunM

variable {σ : Type} {n : Nat}

section Calls

variable {dimension : Dimension} {cap : Int} {f : Objective Id ℝ n} {x : Vector ℝ n}

/-- A call that has ended where a derivative is refused, the gradient at the start or a Hessian. -/
def Call.Refused (f : Objective Id ℝ n) (x : Vector ℝ n) (call : Call σ ℝ n) : Prop :=
  ∃ r e, (RefusesGradient f x r e ∨ RefusesHessian f r e) ∧
    call = ⟨.error e, r.state, some r.iterate, r.events⟩

theorem Call.make_plain_or_refused (options : RunOptions) (s : σ)
    {run : RunOptions → Nat → Vector ℝ n → RunM Id σ ℝ n (RunResult ℝ n)}
    (agrees : ∀ limit y, Agrees (fun r e => RefusesGradient f y r e ∨ RefusesHessian f r e)
      (run { options with isDebug := true } limit y)
      (run { options with isDebug := false } limit y) ⟨s, y, #[], #[]⟩) :
    Id.run (Call.make dimension cap options s (.ofVector x) (run options)) =
        Id.run (Call.make dimension cap { options with isDebug := false } s (.ofVector x)
          (run { options with isDebug := false })) ∨
      options.isDebug = true ∧
        (Id.run (Call.make dimension cap options s (.ofVector x) (run options))).Refused f x := by
  obtain ⟨budget, isTrajectory, isDebug⟩ := options
  cases isDebug with
  | false => exact .inl rfl
  | true =>
      rcases Call.make_agrees dimension cap ⟨budget, isTrajectory, true⟩ (.ofVector x) agrees with
        same | ⟨y, limit, r, e, requested, refused, ended⟩
      · exact .inl same
      · rw [checkRequest_real] at requested
        have start_eq : x = y := by
          split_ifs at requested
          cases resolved : (resolveBudget budget cap : Except (Error ℝ) Int) with
          | error e => simp only [resolved] at requested; cases requested
          | ok k => simp only [resolved] at requested; cases requested; rfl
        exact .inr ⟨rfl, r, e, start_eq ▸ refused, ended⟩

/-- A call on an objective beside the call on its image: the image of the call, unless in debug
mode a derivative is refused in one of the two. -/
inductive Call.Corresponds (M : Motion n) (v : ℝ) (f : Objective Id ℝ n) (x : Vector ℝ n)
    (options : RunOptions) (plain moved : Call σ ℝ n) : Prop where
  | moves (moves : plain.Moves M v moved)
  | refused (debug : options.isDebug = true)
      (refused : plain.Refused f x ∨ moved.Refused (M.objective v f) (M.move x))

theorem Call.make_corresponds {M : Motion n} {v : ℝ} {options : RunOptions} {s : σ} (inner : σ → σ)
    {run run' : RunOptions → Nat → Vector ℝ n → RunM Id σ ℝ n (RunResult ℝ n)}
    (agrees : ∀ limit y, Agrees (fun r e => RefusesGradient f y r e ∨ RefusesHessian f r e)
      (run { options with isDebug := true } limit y)
      (run { options with isDebug := false } limit y) ⟨s, y, #[], #[]⟩)
    (agrees' : ∀ limit y, Agrees
      (fun r e => RefusesGradient (M.objective v f) y r e ∨ RefusesHessian (M.objective v f) r e)
      (run' { options with isDebug := true } limit y)
      (run' { options with isDebug := false } limit y) ⟨s, y, #[], #[]⟩)
    (commutes : ∀ limit, Commutes (M.run v inner) (.moved M v)
      (run { options with isDebug := false } limit x)
      (run' { options with isDebug := false } limit (M.move x)))
    (afresh : ∀ limit,
      outcome (run' { options with isDebug := false } limit (M.move x)) ⟨s, M.move x, #[], #[]⟩ =
        outcome (run' { options with isDebug := false } limit (M.move x))
          ⟨inner s, M.move x, #[], #[]⟩) :
    (Id.run (Call.make dimension cap options s (.ofVector x) (run options))).Corresponds M v f x
      options
      (Id.run (Call.make dimension cap options s (.ofVector (M.move x)) (run' options))) := by
  have moved : (Id.run (Call.make dimension cap { options with isDebug := false } s (.ofVector x)
      (run { options with isDebug := false }))).Moves M v
      (Id.run (Call.make dimension cap { options with isDebug := false } s
        (.ofVector (M.move x)) (run' { options with isDebug := false }))) :=
    Call.make_moves commutes afresh
  rcases Call.make_plain_or_refused options s agrees with same | ⟨debug, refused⟩
  · rcases Call.make_plain_or_refused options s agrees' with same' | ⟨debug, refused⟩
    · rw [same, same']
      exact .moves moved
    · exact .refused debug (.inr refused)
  · exact .refused debug (.inl refused)

end Calls

/-- A call on a moved and raised objective, from the moved start, is the image of the call on the
objective itself: its points are moved, its values raised, and all else is the same, also where it
fails.  In debug mode a derivative may instead be refused in one of the two. -/
theorem optimize_equivariant (M : Motion n) (v : ℝ) (f : Objective Id ℝ n) (options : RunOptions)
    (dimension : Dimension) (x : Vector ℝ n) :
    (∀ (c : Lbfgs.Config ℝ) (s : Lbfgs.State ℝ n),
      (Id.run (Lbfgs.optimize f c dimension s (.ofVector x) options)).Corresponds M v f x options
        (Id.run (Lbfgs.optimize (M.objective v f) c dimension s (.ofVector (M.move x))
          options))) ∧
    ∀ (c : TrustRegion.Config ℝ) (s : TrustRegion.State ℝ),
      (Id.run (TrustRegion.optimize f c dimension s (.ofVector x) options)).Corresponds M v f x
        options
        (Id.run (TrustRegion.optimize (M.objective v f) c dimension s (.ofVector (M.move x))
          options)) := by
  have off : ({ options with isDebug := false } : RunOptions).isDebug = false := rfl
  constructor
  · intro c s
    refine Call.make_corresponds (.turned M) (fun limit y => ?_) (fun limit y => ?_)
      (fun limit => Lbfgs.run_commutes M v f c off limit x) fun limit => ?_
    · exact (Lbfgs.run_agrees f c options s limit y).weaken fun _ _ => .inl
    · exact (Lbfgs.run_agrees (M.objective v f) c options s limit y).weaken fun _ _ => .inl
    · exact Lbfgs.run_afresh (M.objective v f) c off rfl limit (M.move x)
  · intro c s
    exact Call.make_corresponds id (TrustRegion.run_agrees f c options s)
      (TrustRegion.run_agrees (M.objective v f) c options s)
      (fun limit => TrustRegion.run_commutes M v f c off limit x) fun _ => rfl

end Descent
