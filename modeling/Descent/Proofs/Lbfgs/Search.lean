import Descent.Proofs.LineSearch.Ray
import Descent.Proofs.LineSearch.Related
import Descent.Proofs.Run
import Descent.Lbfgs.Run
/-!
# Line searches within a run

A line search of a run sees the same values and slopes as a search along the ray of a
function and its gradient, and it settles on the same step.  Of the run it changes only the
count of gradients, whatever the objective and also where it fails.
-/

namespace Descent.Lbfgs

open RunM

variable {α β γ : Type} {n : Nat}

section Caught

variable {r r' : Run (State α n) α n} {search : Steps Id α n (SearchResult α)}

theorem outcome_caught :
    outcome (caught search) r = (absorb (outcome search r).1, (outcome search r).2) := rfl

theorem outcome_caught_of_ok {result : SearchResult α}
    (ok : outcome search r = (.ok result, r')) :
    outcome (caught search) r = (.ok result, r') := by
  rw [outcome_caught, ok]
  rfl

theorem keeps_caught {view : Run (State α n) α n → β} (keeps : Keeps view search) :
    Keeps view (caught search) := keeps

end Caught

def addGradients (k : Nat) (r : Run (State α n) α n) : Run (State α n) α n :=
  { r with state := { r.state with gradients := r.state.gradients + k } }

/-- Steps that answer `b` from every run and only compute gradients. -/
def Answers (x : Steps Id α n β) (b : β) : Prop :=
  ∀ r, ∃ k, outcome x r = (.ok b, addGradients k r)

namespace Answers

theorem pure (b : β) : Answers (Pure.pure b : Steps Id α n β) b :=
  fun _ => ⟨0, rfl⟩

theorem bind {x : Steps Id α n β} {f : β → Steps Id α n γ} {b : β} {c : γ}
    (first : Answers x b) (rest : Answers (f b) c) : Answers (x >>= f) c := by
  intro r
  obtain ⟨k, first⟩ := first r
  obtain ⟨l, rest⟩ := rest (addGradients k r)
  refine ⟨k + l, ?_⟩
  rw [outcome_bind_of_ok first, rest]
  simp only [addGradients, Nat.add_assoc]

end Answers

theorem answers_caught {search : Steps Id α n (SearchResult α)} {result : SearchResult α}
    (answers : Answers search result) : Answers (caught search) result := by
  intro r
  obtain ⟨k, ok⟩ := answers r
  exact ⟨k, outcome_caught_of_ok ok⟩

/-- A ray of a run that has the values of `φ` and the slopes of `φ'`. -/
structure Mirrors (ray : Ray (Steps Id α n) α) (φ φ' : α → α) : Prop where
  value (step : α) : Answers (ray.value step) (φ step)
  slope (step : α) : Answers (ray.slope step) (φ' step)

theorem answers_sequential :
    Sequential fun β (x : Steps Id α n β) (answer : Id β) => Answers x answer.run where
  pure b := .pure b
  bind first rest := first.bind (rest _)

theorem Mirrors.related {ray : Ray (Steps Id α n) α} {φ φ' : α → α} (mirrors : Mirrors ray φ φ') :
    ray.Related (fun _ x answer => Answers x answer.run) (.ofFunctions φ φ') :=
  ⟨mirrors.value, mirrors.slope⟩

section Along

variable [Scalar α] (name : String) (value : Vector α n → α)
  (gradient : Vector α n → Vector α n) (hessian : Vector α n → SquareMatrix α n)
  (x direction : Vector α n)

/-- Along every direction a run searches the ray of the function and its gradient. -/
theorem ray_mirrors :
    Mirrors (ray (.ofFunctions name value gradient hessian) x direction)
      (fun step => value (x + step * direction))
      (fun step => dot (gradient (x + step * direction)) direction) where
  value _ := fun _ => ⟨0, rfl⟩
  slope _ := fun _ => ⟨1, rfl⟩

theorem wolfe_answers (s : Wolfe.Settings α) (start slope : α) :
    Answers (caught (Wolfe.search (ray (.ofFunctions name value gradient hessian) x direction) s
        (some start) (pure slope)))
      (Wolfe.search (Ray.along value gradient x direction) s (some start) (pure slope)).run :=
  answers_caught ((ray_mirrors name value gradient hessian x direction).related.wolfe
    answers_sequential s start slope)

theorem armijo_answers (s : Armijo.Settings α) (start slope : α) (evaluations : Nat) :
    Answers (caught (Armijo.search (ray (.ofFunctions name value gradient hessian) x
        direction).value s start slope evaluations))
      (Armijo.search (Ray.along value gradient x direction).value s start slope
        evaluations).run :=
  answers_caught ((ray_mirrors name value gradient hessian x direction).related.armijo
    answers_sequential s start slope evaluations)

end Along

section Counted

def uncounted (r : Run (State α n) α n) : Run (State α n) α n :=
  { r with state := { r.state with gradients := 0 } }

theorem keeps_sequential :
    Sequential fun β (x _ : Steps Id α n β) => Keeps uncounted x where
  pure b := .pure b
  bind first rest := first.bind rest

variable [Scalar α] (f : Objective Id α n) (x direction : Vector α n)

/-- Whatever the objective, trials along a ray only count gradients. -/
theorem ray_keeps :
    (ray f x direction).Related (fun _ x _ => Keeps uncounted x) (ray f x direction) where
  value _ := .ask _
  slope _ := by
    have counted : Keeps uncounted
        (update fun s => { s with gradients := s.gradients + 1 } : Steps Id α n Unit) :=
      fun _ => rfl
    exact (counted.bind fun _ => .ask _).bind fun _ => .pure _

theorem wolfe_keeps (s : Wolfe.Settings α) (start slope : α) :
    Keeps uncounted (caught (Wolfe.search (ray f x direction) s (some start) (pure slope))) :=
  keeps_caught ((ray_keeps f x direction).wolfe keeps_sequential s start slope)

theorem armijo_keeps (s : Armijo.Settings α) (start slope : α) (evaluations : Nat) :
    Keeps uncounted
      (caught (Armijo.search (ray f x direction).value s start slope evaluations)) :=
  keeps_caught ((ray_keeps f x direction).armijo keeps_sequential s start slope evaluations)

end Counted

end Descent.Lbfgs
