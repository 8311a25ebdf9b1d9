import Descent.Proofs.Run
import Descent.LineSearch.Wolfe
import Descent.LineSearch.Armijo
/-!
# Counted calls

An objective that acts on a world of its own, and the same objective with its calls counted
there.  Steps that ask the one come to the same as steps that ask the other; what the latter
have to say of the run and of the calls is proved step by step, and the line searches are walked
through once.
-/

namespace Descent

variable {ω σ α β γ : Type} {n : Nat}

/-- How often the operations of an objective have been called, and how many of these calls ended
with the failure of a line search that was the objective's own. -/
@[ext]
structure Calls where
  values : Nat
  gradients : Nat
  hessians : Nat
  broken : Nat

namespace Calls

def none : Calls := ⟨0, 0, 0, 0⟩

def addValue (k : Calls) : Calls := { k with values := k.values + 1 }

def addGradient (k : Calls) : Calls := { k with gradients := k.gradients + 1 }

def addHessian (k : Calls) : Calls := { k with hessians := k.hessians + 1 }

def addBroken (k : Calls) : Calls := { k with broken := k.broken + 1 }

def noting (k : Calls) : Except (Error α) β → Calls
  | .error (.lineSearch _) => k.addBroken
  | _ => k

end Calls

def Attempt.counted (count : Calls → Calls) (operation : Attempt (StateM ω) α β) :
    Attempt (StateM (ω × Calls)) α β :=
  ExceptT.mk fun (world, calls) =>
    let (answer, world) := operation.run world
    (answer, (world, (count calls).noting answer))

/-- No call ends with the failure of a line search. -/
def Attempt.NeverSearches (operation : Attempt (StateM ω) α β) : Prop :=
  ∀ world failure, (operation.run world).1 ≠ .error (.lineSearch failure)

structure Objective.NeverSearches (f : Objective (StateM ω) α n) : Prop where
  value (x : Vector α n) : (f.value x).NeverSearches
  gradient (x : Vector α n) : (f.gradient x).NeverSearches
  hessian (x : Vector α n) : (f.hessian x).NeverSearches

/-- An objective that counts its calls in its world. -/
def Objective.counted (f : Objective (StateM ω) α n) : Objective (StateM (ω × Calls)) α n where
  name := f.name
  value x := Attempt.counted .addValue (f.value x)
  gradient x := Attempt.counted .addGradient (f.gradient x)
  hessian x := Attempt.counted .addHessian (f.hessian x)

namespace RunM

def outcomeIn (x : RunM (StateM ω) σ α n β) (r : Run σ α n) (world : ω) :
    (Except (Error α) β × Run σ α n) × ω := (x.run.run r).run world

theorem outcomeIn_bind (x : RunM (StateM ω) σ α n β) (f : β → RunM (StateM ω) σ α n γ)
    (r : Run σ α n) (world : ω) :
    outcomeIn (x >>= f) r world =
      match outcomeIn x r world with
      | ((.ok b, r₁), world₁) => outcomeIn (f b) r₁ world₁
      | ((.error e, r₁), world₁) => ((.error e, r₁), world₁) := by
  change ExceptT.bindCont f (outcomeIn x r world).1.1 (outcomeIn x r world).1.2
    (outcomeIn x r world).2 = _
  rcases outcomeIn x r world with ⟨⟨_ | b, r₁⟩, world₁⟩ <;> rfl

/-- Steps of a counted objective come to the same as those of the plain one.  They are taken
where `P` holds of the run and the calls so far, and if they succeed `Q` holds of the answer,
the run and the calls.  If a call ends them that failed in a search of its own, `E` holds. -/
def Counts (P : Run σ α n → Calls → Prop) (x : RunM (StateM (ω × Calls)) σ α n β)
    (y : RunM (StateM ω) σ α n β) (Q : β → Run σ α n → Calls → Prop)
    (E : Run σ α n → Calls → Prop := fun _ _ => True) : Prop :=
  ∀ r r' world world' calls answer, P r calls →
    outcomeIn y r world = ((answer, r'), world') →
    ∃ calls', outcomeIn x r (world, calls) = ((answer, r'), (world', calls')) ∧
      (∀ b, answer = .ok b → Q b r' calls') ∧
      ∀ failure, answer = .error (.lineSearch failure) → E r' calls'

namespace Counts

variable {P : Run σ α n → Calls → Prop} {Q : β → Run σ α n → Calls → Prop}
  {S : γ → Run σ α n → Calls → Prop} {E : Run σ α n → Calls → Prop}

theorem bind {x : RunM (StateM (ω × Calls)) σ α n β} {y : RunM (StateM ω) σ α n β}
    {f : β → RunM (StateM (ω × Calls)) σ α n γ} {g : β → RunM (StateM ω) σ α n γ}
    (first : Counts P x y Q E) (rest : ∀ b, Counts (Q b) (f b) (g b) S E) :
    Counts P (x >>= f) (y >>= g) S E := by
  intro r r' world world' calls answer before ran
  rw [outcomeIn_bind] at ran ⊢
  rcases begun : outcomeIn y r world with ⟨⟨e | b, r₁⟩, world₁⟩
  · obtain ⟨calls₁, same, _, broken⟩ := first _ _ _ _ _ _ before begun
    rw [begun] at ran
    rw [same]
    cases ran
    refine ⟨calls₁, rfl, by simp, fun failure eq => ?_⟩
    exact broken failure (congrArg _ (Except.error.inj eq))
  · obtain ⟨calls₁, same, between, _⟩ := first _ _ _ _ _ _ before begun
    rw [begun] at ran
    rw [same]
    exact rest b _ _ _ _ _ _ (between b rfl) ran

theorem weaken {x : RunM (StateM (ω × Calls)) σ α n β} {y : RunM (StateM ω) σ α n β}
    {P' : Run σ α n → Calls → Prop} (counts : Counts P x y Q E)
    (holds : ∀ r calls, P' r calls → P r calls) : Counts P' x y Q E :=
  fun _ _ _ _ _ _ before ran => counts _ _ _ _ _ _ (holds _ _ before) ran

theorem silent {x : RunM (StateM (ω × Calls)) σ α n β} {y : RunM (StateM ω) σ α n β}
    {answer : Run σ α n → β} {change : Run σ α n → Run σ α n}
    (counted : ∀ r world, outcomeIn x r world = ((.ok (answer r), change r), world))
    (plain : ∀ r world, outcomeIn y r world = ((.ok (answer r), change r), world))
    (holds : ∀ r calls, P r calls → Q (answer r) (change r) calls) : Counts P x y Q E := by
  intro r r' world world' calls result before ran
  rw [plain] at ran
  cases ran
  refine ⟨calls, counted r _, ?_, by simp⟩
  rintro _ ⟨⟩
  exact holds r calls before

theorem pure {b : β} (eq : P = Q b) :
    Counts P (Pure.pure b : RunM (StateM (ω × Calls)) σ α n β)
      (Pure.pure b : RunM (StateM ω) σ α n β) Q E :=
  silent (fun _ _ => rfl) (fun _ _ => rfl) fun _ _ holds => eq ▸ holds

theorem throw {e : Error α} :
    Counts P (MonadExcept.throw e : RunM (StateM (ω × Calls)) σ α n β)
      (MonadExcept.throw e : RunM (StateM ω) σ α n β) Q := by
  intro r r' world world' calls answer before ran
  cases ran
  exact ⟨calls, rfl, by simp, fun _ _ => trivial⟩

theorem check (outcome : Except (Error α) β) (holds : ∀ b r calls, P r calls → Q b r calls) :
    Counts P (RunM.check outcome : RunM (StateM (ω × Calls)) σ α n β)
      (RunM.check outcome : RunM (StateM ω) σ α n β) Q := by
  intro r r' world world' calls answer before ran
  cases ran
  exact ⟨calls, rfl, fun b _ => holds b r calls before, fun _ _ => trivial⟩

theorem ask_or_break {count : Calls → Calls} {operation : Attempt (StateM ω) α β}
    (holds : ∀ b r calls, P r calls → Q b r (count calls))
    (breaks : ∀ r calls, P r calls → ¬operation.NeverSearches → E r (count calls).addBroken) :
    Counts P (RunM.ask (operation.counted count) : RunM (StateM (ω × Calls)) σ α n β)
      (RunM.ask operation : RunM (StateM ω) σ α n β) Q E := by
  intro r r' world world' calls answer before ran
  cases ran
  refine ⟨_, rfl, fun b eq => ?_, fun failure eq => ?_⟩
  · rw [eq]
    exact holds b r calls before
  · rw [eq]
    exact breaks r calls before fun never => never world failure eq

theorem ask {count : Calls → Calls} {operation : Attempt (StateM ω) α β}
    (holds : ∀ b r calls, P r calls → Q b r (count calls)) :
    Counts P (RunM.ask (operation.counted count) : RunM (StateM (ω × Calls)) σ α n β)
      (RunM.ask operation : RunM (StateM ω) σ α n β) Q :=
  ask_or_break holds fun _ _ _ _ => trivial

theorem ite {c : Prop} [Decidable c] {x₁ x₂ : RunM (StateM (ω × Calls)) σ α n β}
    {y₁ y₂ : RunM (StateM ω) σ α n β} (holds : Counts P x₁ y₁ Q E)
    (fails : Counts P x₂ y₂ Q E) :
    Counts P (if c then x₁ else x₂) (if c then y₁ else y₂) Q E := by
  by_cases h : c
  · rw [if_pos h, if_pos h]
    exact holds
  · rw [if_neg h, if_neg h]
    exact fails

end Counts

end RunM

section Searches

def SearchResult.evaluations (result : SearchResult α) : Nat :=
  match result with
  | .ok (_, evaluations) => evaluations
  | .error failure => failure.evaluations

/-- A ray whose values leave one more call to be accounted for, and whose slopes leave none; `I`
says what holds while a number of calls is not accounted for, and `E` what holds where a call that
failed in a search of its own has ended the search along the ray. -/
structure Ray.Owes (I : Nat → Run σ α n → Calls → Prop) (E : Run σ α n → Calls → Prop)
    (ray₁ : Ray (RunM (StateM (ω × Calls)) σ α n) α) (ray₂ : Ray (RunM (StateM ω) σ α n) α) :
    Prop where
  value (owed : Nat) (step : α) :
    RunM.Counts (I owed) (ray₁.value step) (ray₂.value step) (fun _ => I (owed + 1)) E
  slope (owed : Nat) (step : α) :
    RunM.Counts (I owed) (ray₁.slope step) (ray₂.slope step) (fun _ => I owed) E

namespace Ray.Owes

open RunM (Counts)

variable [Scalar α] {I : Nat → Run σ α n → Calls → Prop} {E : Run σ α n → Calls → Prop}
  {ray₁ : Ray (RunM (StateM (ω × Calls)) σ α n) α} {ray₂ : Ray (RunM (StateM ω) σ α n) α}

section Wolfe

open Descent.Wolfe

variable {t : Target α}

theorem refine (owes : Owes I E ray₁ ray₂) (owed : Nat) (b : Bracket α) :
    Counts (I owed) (Wolfe.refine ray₁ t b) (Wolfe.refine ray₂ t b)
      (fun _ => I (owed + 1)) E := by
  refine (owes.value owed _).bind fun trial => .ite (.pure rfl) ?_
  exact (owes.slope _ _).bind fun slope => .ite (.pure rfl) (.pure rfl)

theorem extend (owes : Owes I E ray₁ ray₂) (owed : Nat) (longest : α) (isFirst : Bool)
    (previous : Trial α) (step : α) :
    Counts (I owed) (Wolfe.extend ray₁ t longest isFirst previous step)
      (Wolfe.extend ray₂ t longest isFirst previous step) (fun _ => I (owed + 1)) E := by
  refine (owes.value owed _).bind fun value => .ite (.pure rfl) ?_
  refine (owes.slope _ _).bind fun slope => .ite (.pure rfl) ?_
  exact .ite (.pure rfl) (.ite (.pure rfl) (.pure rfl))

theorem zoom (owes : Owes I E ray₁ ray₂) (k : Nat) (b : Bracket α) (owed : Nat) :
    Counts (I owed) (Wolfe.zoom ray₁ t k b owed) (Wolfe.zoom ray₂ t k b owed)
      (fun found => I found.2) E := by
  induction k generalizing b owed with
  | zero => exact .pure rfl
  | succ k ih =>
      refine (owes.refine owed b).bind fun refinement => ?_
      cases refinement with
      | accepted step => exact .pure rfl
      | narrowed b => exact .ite (.pure rfl) (ih b (owed + 1))

theorem settle (owes : Owes I E ray₁ ray₂) (b : Bracket α) (owed : Nat) :
    Counts (I owed) (Wolfe.settle ray₁ t b owed) (Wolfe.settle ray₂ t b owed)
      (fun result => I result.evaluations) E := by
  refine (owes.zoom halvings b owed).bind fun found => ?_
  rcases found with ⟨_ | step, evaluations⟩
  · exact .pure rfl
  · exact .pure rfl

theorem lengthen (owes : Owes I E ray₁ ray₂) (s : Settings α) (trials : Nat) (isFirst : Bool)
    (previous : Trial α) (step : α) (owed : Nat) :
    Counts (I owed) (Wolfe.lengthen ray₁ t s trials isFirst previous step owed)
      (Wolfe.lengthen ray₂ t s trials isFirst previous step owed)
      (fun result => I result.evaluations) E := by
  induction trials generalizing isFirst previous step owed with
  | zero => exact .pure rfl
  | succ trials ih =>
      refine (owes.extend owed s.longest isFirst previous step).bind fun extension => ?_
      cases extension with
      | accepted step => exact .pure rfl
      | bracketed b => exact owes.settle b (owed + 1)
      | bounded step => exact .pure rfl
      | lengthened previous step => exact ih false previous step (owed + 1)

/-- A search answers with the number of its trials, whether it succeeds or fails. -/
theorem wolfe (owes : Owes I E ray₁ ray₂) (s : Settings α) (start slope : α) :
    Counts (I 0) (Wolfe.search ray₁ s (some start) (pure slope))
      (Wolfe.search ray₂ s (some start) (pure slope)) (fun result => I result.evaluations) E := by
  refine Counts.bind (Q := fun known => I known.2) (.pure rfl) fun known => ?_
  refine Counts.bind (Q := fun _ => I known.2) (.pure rfl) fun slope => ?_
  exact .ite (owes.lengthen s _ _ _ _ known.2) (.pure rfl)

end Wolfe

section Armijo

open Descent.Armijo

theorem backtrack (owes : Owes I E ray₁ ray₂) (s : Settings α) (start slope : α) (trials : Nat)
    (step : α) (owed : Nat) :
    Counts (I owed) (Armijo.backtrack ray₁.value s start slope trials step owed)
      (Armijo.backtrack ray₂.value s start slope trials step owed)
      (fun result => I result.evaluations) E := by
  induction trials generalizing step owed with
  | zero => exact .pure rfl
  | succ trials ih =>
      refine (owes.value owed step).bind fun trial => ?_
      refine .ite (.pure rfl) ?_
      exact .ite (.pure rfl) (ih _ (owed + 1))

theorem armijo (owes : Owes I E ray₁ ray₂) (s : Settings α) (start slope : α) (owed : Nat) :
    Counts (I owed) (Armijo.search ray₁.value s start slope owed)
      (Armijo.search ray₂.value s start slope owed) (fun result => I result.evaluations) E :=
  .ite (.pure rfl) (owes.backtrack s _ _ _ _ owed)

end Armijo

end Ray.Owes

end Searches

def RunResult.calls (result : RunResult α n) : Calls :=
  ⟨result.evaluations, result.gradients, result.hessians, 0⟩

section Calls

variable [Scalar α] {dimension : Dimension} {cap : Int} {options : RunOptions} {s : σ}
  {start : Tensor α}

end Calls

end Descent
