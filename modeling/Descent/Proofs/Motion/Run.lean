import Descent.Proofs.Motion.Linear
import Descent.Proofs.LineSearch.Related
import Descent.Proofs.Run
/-!
# Moved runs

An objective is moved and raised, and its runs with it: their points are moved, and their values
raised, also those that they report.  Steps commute with this if, taken on the moved run, they come
to the image of what they come to on the run itself, also where they fail.
-/

namespace Descent

variable {σ α β γ δ : Type} {n : Nat}

namespace RunM

/-- Steps on a run and steps on its image that come to an answer and its image, or to one error. -/
def Commutes (image : Run σ α n → Run σ α n) (answer : β → γ) (x : RunM Id σ α n β)
    (y : RunM Id σ α n γ) : Prop :=
  ∀ r, outcome y (image r) = ((outcome x r).1.map answer, image (outcome x r).2)

namespace Commutes

variable {image : Run σ α n → Run σ α n} {answer : β → γ}

theorem pure (b : β) : Commutes image answer (Pure.pure b) (Pure.pure (answer b)) := fun _ => rfl

theorem pure_of_eq {b : β} {c : γ} (eq : c = answer b) :
    Commutes image answer (Pure.pure b) (Pure.pure c) := eq ▸ .pure b

theorem bind {x : RunM Id σ α n β} {y : RunM Id σ α n γ} {β' γ' : Type} {answer' : β' → γ'}
    {f : β → RunM Id σ α n β'} {g : γ → RunM Id σ α n γ'} (first : Commutes image answer x y)
    (rest : ∀ b, Commutes image answer' (f b) (g (answer b))) :
    Commutes image answer' (x >>= f) (y >>= g) := by
  intro r
  rw [outcome_bind, outcome_bind, first]
  rcases outcome x r with ⟨e | b, r₁⟩
  · rfl
  · exact rest b r₁

theorem ite {c : Prop} [Decidable c] {x₁ x₂ : RunM Id σ α n β} {y₁ y₂ : RunM Id σ α n γ}
    (holds : Commutes image answer x₁ y₁) (fails : Commutes image answer x₂ y₂) :
    Commutes image answer (if c then x₁ else x₂) (if c then y₁ else y₂) := by
  split_ifs
  · exact holds
  · exact fails

theorem map_ask {x : Attempt Id α β} {y : Attempt Id α γ} (eq : y = answer <$> x) :
    Commutes image answer (RunM.ask x) (RunM.ask y) := by
  intro r
  rw [eq]
  exact outcome_ask_of_eq (congrArg Id.run (ExceptT.run_map answer x))

theorem check {x : Except (Error α) β} {y : Except (Error α) γ} (eq : y = x.map answer) :
    Commutes image answer (RunM.check x) (RunM.check y) := fun _ => outcome_check_of_eq eq

theorem throw (e : Error α) :
    Commutes image answer (MonadExcept.throw e) (MonadExcept.throw e) := fun _ => rfl

theorem image_left {x : RunM Id σ α n β} {y : RunM Id σ α n γ}
    (commutes : Commutes image answer x y) : Commutes image id (answer <$> x) y := by
  rw [← bind_pure_comp, ← bind_pure y]
  exact commutes.bind fun b => .pure (answer b)

theorem sequential : Sequential (fun β (x y : RunM Id σ α n β) => Commutes image id x y) where
  pure b := Commutes.pure b
  bind first rest := Commutes.bind first rest

end Commutes

end RunM

def Event.raised (v : ℝ) : Event ℝ → Event ℝ
  | .lineStep i value gradientNorm step pairs => .lineStep i (value + v) gradientNorm step pairs
  | .lineFinished status i value gradientNorm => .lineFinished status i (value + v) gradientNorm
  | .regionStep i value gradientNorm ratio radius isAccepted =>
    .regionStep i (value + v) gradientNorm ratio radius isAccepted
  | .regionFinished status i value gradientNorm radius =>
    .regionFinished status i (value + v) gradientNorm radius
  | .searchRetried i fault => .searchRetried i fault
  | .regionCollapsed i => .regionCollapsed i

namespace Motion

variable (M : Motion n) (v : ℝ)

/-- The objective `z ↦ f (Qᵀ (z - t)) + v` with its derivatives. -/
def objective (f : Objective Id ℝ n) : Objective Id ℝ n where
  name := f.name
  value z := (· + v) <$> f.value (M.back z)
  gradient z := M.turn <$> f.gradient (M.back z)
  hessian z := M.conjugate <$> f.hessian (M.back z)

/-- A run with its points moved and its reports raised, where `inner` says what becomes of the
optimizer's state. -/
def run (inner : σ → σ) (r : Run σ ℝ n) : Run σ ℝ n where
  state := inner r.state
  iterate := M.move r.iterate
  path := r.path.map M.move
  events := r.events.map (.raised v)

theorem run_begin (inner : σ → σ) (s : σ) (x : Vector ℝ n) :
    M.run v inner ⟨s, x, #[], #[]⟩ = ⟨inner s, M.move x, #[], #[]⟩ := by
  simp [run]

end Motion

def RunResult.moved (M : Motion n) (v : ℝ) (result : RunResult ℝ n) : RunResult ℝ n :=
  { result with
    iterate := M.move result.iterate
    value := result.value + v
    trajectory := result.trajectory.map M.move }

namespace RunM

variable {M : Motion n} {v : ℝ} {inner : σ → σ}

namespace Commutes

theorem update {change change' : σ → σ} (eq : ∀ s, change' (inner s) = inner (change s)) :
    Commutes (M.run v inner) id (RunM.update change) (RunM.update change') := by
  intro r
  simp only [outcome_update, Motion.run, eq]
  rfl

theorem state : Commutes (M.run v inner) inner RunM.state RunM.state := fun _ => rfl

theorem get : Commutes (M.run v inner) (M.run v inner) MonadState.get MonadState.get := fun _ => rfl

theorem report (e : Event ℝ) :
    Commutes (M.run v inner) id (RunM.report e) (RunM.report (e.raised v)) := by
  intro r
  simp [Motion.run]

theorem trace (options : RunOptions) (x : Vector ℝ n) :
    Commutes (M.run v inner) id (RunM.trace options x) (RunM.trace options (M.move x)) := by
  intro r
  cases traced : options.isTrajectory <;> simp [Motion.run, traced]

theorem settle (options : RunOptions) (x : Vector ℝ n) :
    Commutes (M.run v inner) id (RunM.settle options x) (RunM.settle options (M.move x)) := by
  intro r
  cases traced : options.isTrajectory <;> simp [Motion.run, traced]

section Objective

variable (f : Objective Id ℝ n) (x : Vector ℝ n)

theorem value :
    Commutes (M.run v inner) (· + v) (RunM.ask (f.value x))
      (RunM.ask ((M.objective v f).value (M.move x))) :=
  .map_ask (congrArg (fun y => (· + v) <$> f.value y) (M.back_move x))

theorem gradient :
    Commutes (M.run v inner) M.turn (RunM.ask (f.gradient x))
      (RunM.ask ((M.objective v f).gradient (M.move x))) :=
  .map_ask (congrArg (fun y => M.turn <$> f.gradient y) (M.back_move x))

theorem hessian :
    Commutes (M.run v inner) M.conjugate (RunM.ask (f.hessian x))
      (RunM.ask ((M.objective v f).hessian (M.move x))) :=
  .map_ask (congrArg (fun y => M.conjugate <$> f.hessian y) (M.back_move x))

end Objective

end Commutes

end RunM

section Calls

open RunM

variable {M : Motion n} {v : ℝ} {dimension : Dimension} {cap : Int} {budget : Option Int}

/-- Whether a start is accepted depends on nothing but its length. -/
theorem checkRequest_real (x : Vector ℝ n) :
    checkRequest dimension cap budget (.ofVector x) =
      if dimension.isCount n then (fun k => (x, k.toNat)) <$> resolveBudget budget cap
      else (.error (.setting (.iterateSize n dimension)) : Except (Error ℝ) _) := by
  have entries : (Tensor.ofVector x).toFlat? = some x.toArray := rfl
  have finite : x.toArray.all Scalar.isFinite = true := Array.all_eq_true.mpr fun _ _ => rfl
  have vector : Tensor.vector? n x.toArray = some x := by
    simp [Tensor.vector?]
  have size_eq : dimension.isCount x.toArray.size = dimension.isCount n := by
    rw [Vector.size_toArray]
  unfold checkRequest checkStart checkIterate
  simp only [entries, size_eq]
  cases dimension.isCount n with
  | false =>
      simp only [Vector.size_toArray]
      rfl
  | true =>
      simp only [finite, vector, Bool.not_true, Bool.false_eq_true, if_false, if_true, bind,
        Except.bind]
      cases (resolveBudget budget cap : Except (Error ℝ) Int) <;> rfl

structure Call.Moves (M : Motion n) (v : ℝ) (plain moved : Call σ ℝ n) : Prop where
  result_eq : moved.result = plain.result.map (.moved M v)
  iterate_eq : moved.iterate = plain.iterate.map M.move
  events_eq : moved.events = plain.events.map (.raised v)

/-- Calls move if their runs commute with the motion, and the moved run takes nothing from the
state that it begins with. -/
theorem Call.make_moves {inner : σ → σ} {s : σ} {options : RunOptions}
    {run run' : Nat → Vector ℝ n → RunM Id σ ℝ n (RunResult ℝ n)} {x : Vector ℝ n}
    (commutes : ∀ limit,
      Commutes (M.run v inner) (.moved M v) (run limit x) (run' limit (M.move x)))
    (afresh : ∀ limit, outcome (run' limit (M.move x)) ⟨s, M.move x, #[], #[]⟩ =
      outcome (run' limit (M.move x)) ⟨inner s, M.move x, #[], #[]⟩) :
    (Id.run (Call.make dimension cap options s (.ofVector x) run)).Moves M v
      (Id.run (Call.make dimension cap options s (.ofVector (M.move x)) run')) := by
  have requested := @checkRequest_real n dimension cap options.budget
  split_ifs at requested
  · cases resolved : (resolveBudget options.budget cap : Except (Error ℝ) Int) with
    | error e =>
        simp only [resolved] at requested
        rw [Call.make_of_error (requested x), Call.make_of_error (requested (M.move x))]
        exact ⟨rfl, rfl, Array.map_empty.symm⟩
    | ok k =>
        simp only [resolved] at requested
        have moves := commutes k.toNat ⟨s, x, #[], #[]⟩
        rw [Motion.run_begin] at moves
        rw [Call.make_of_ok (requested x), Call.make_of_ok (requested (M.move x)), afresh, moves]
        exact ⟨rfl, rfl, rfl⟩
  · rw [Call.make_of_error (requested x), Call.make_of_error (requested (M.move x))]
    exact ⟨rfl, rfl, Array.map_empty.symm⟩

end Calls

end Descent
