import Descent.Run
/-!
# Outcomes of runs

What the steps of a run come to when the objective has no effects: an answer or an error,
and the run that they leave.
-/

namespace Descent

variable {σ α β γ : Type} {n : Nat} {r r' : Run σ α n}

section Map

variable {ε : Type} {x : Except ε α} {f : α → β}

theorem exists_of_map_eq_ok {b : β} (ok : x.map f = .ok b) : ∃ a, x = .ok a ∧ f a = b := by
  cases x with
  | error e => cases ok
  | ok a => exact ⟨a, rfl, Except.ok.inj ok⟩

theorem eq_error_of_map_eq_error {e : ε} (failed : x.map f = .error e) : x = .error e := by
  cases x with
  | error e' => exact congrArg _ (Except.error.inj failed)
  | ok a => cases failed

theorem exists_of_toBool {x : Except ε α} (ok : x.toBool = true) : ∃ a, x = .ok a := by
  cases x with
  | error e => cases ok
  | ok a => exact ⟨a, rfl⟩

end Map

namespace RunM

def outcome (x : RunM Id σ α n β) (r : Run σ α n) : Except (Error α) β × Run σ α n :=
  (x.run.run r).run

@[simp] theorem outcome_pure (b : β) :
    outcome (pure b : RunM Id σ α n β) r = (.ok b, r) := rfl

@[simp] theorem outcome_throw (e : Error α) :
    outcome (throw e : RunM Id σ α n β) r = (.error e, r) := rfl

@[simp] theorem outcome_get : outcome (get : RunM Id σ α n (Run σ α n)) r = (.ok r, r) := rfl

@[simp] theorem outcome_state : outcome (state : RunM Id σ α n σ) r = (.ok r.state, r) := rfl

@[simp] theorem outcome_ask (operation : Attempt Id α β) :
    outcome (ask operation : RunM Id σ α n β) r = (operation.run.run, r) := rfl

@[simp] theorem outcome_check (result : Except (Error α) β) :
    outcome (check result : RunM Id σ α n β) r = (result, r) := rfl

theorem outcome_ask_of_eq {operation : Attempt Id α β} {answer : Except (Error α) β}
    (eq : Id.run operation.run = answer) :
    outcome (ask operation : RunM Id σ α n β) r = (answer, r) := by
  rw [outcome_ask]
  exact congrArg (fun answer => (answer, r)) eq

theorem outcome_check_of_eq {result answer : Except (Error α) β} (eq : result = answer) :
    outcome (check result : RunM Id σ α n β) r = (answer, r) := by
  rw [outcome_check, eq]

@[simp] theorem outcome_update (change : σ → σ) :
    outcome (update change : RunM Id σ α n Unit) r =
      (.ok (), { r with state := change r.state }) := rfl

@[simp] theorem outcome_report (event : Event α) :
    outcome (report event : RunM Id σ α n Unit) r =
      (.ok (), { r with events := r.events.push event }) := rfl

@[simp] theorem outcome_trace (options : RunOptions) (x : Vector α n) :
    outcome (trace options x : RunM Id σ α n Unit) r =
      (.ok (), { r with path := if options.isTrajectory then r.path.push x else r.path }) := rfl

@[simp] theorem outcome_settle (options : RunOptions) (x : Vector α n) :
    outcome (settle options x : RunM Id σ α n Unit) r =
      (.ok (), { r with
        iterate := x
        path := if options.isTrajectory then r.path.push x else r.path }) := rfl

@[simp] theorem outcome_ite (c : Prop) [Decidable c] (x y : RunM Id σ α n β) :
    outcome (if c then x else y) r = if c then outcome x r else outcome y r := by
  split <;> rfl

theorem outcome_bind (x : RunM Id σ α n β) (f : β → RunM Id σ α n γ) :
    outcome (x >>= f) r =
      match outcome x r with
      | (.ok b, r₁) => outcome (f b) r₁
      | (.error e, r₁) => (.error e, r₁) := by
  change (ExceptT.bindCont f (x.run.run r).run.1).run (x.run.run r).run.2 = _
  unfold outcome
  rcases (x.run.run r).run with ⟨_ | b, r₁⟩ <;> rfl

theorem outcome_bind_of_ok {x : RunM Id σ α n β} {f : β → RunM Id σ α n γ} {b : β}
    {r₁ : Run σ α n} (ok : outcome x r = (.ok b, r₁)) :
    outcome (x >>= f) r = outcome (f b) r₁ := by
  rw [outcome_bind, ok]

theorem outcome_bind_of_error {x : RunM Id σ α n β} {f : β → RunM Id σ α n γ} {e : Error α}
    {r₁ : Run σ α n} (failed : outcome x r = (.error e, r₁)) :
    outcome (x >>= f) r = (.error e, r₁) := by
  rw [outcome_bind, failed]

/-- Steps that succeed in sequence succeed one by one. -/
theorem outcome_bind_eq_ok {x : RunM Id σ α n β} {f : β → RunM Id σ α n γ} {c : γ} :
    outcome (x >>= f) r = (.ok c, r') ↔
      ∃ b r₁, outcome x r = (.ok b, r₁) ∧ outcome (f b) r₁ = (.ok c, r') := by
  rw [outcome_bind]
  constructor
  · intro ok
    rcases first : outcome x r with ⟨_ | b, r₁⟩
    · rw [first] at ok
      cases ok
    · rw [first] at ok
      exact ⟨b, r₁, rfl, ok⟩
  · rintro ⟨b, r₁, first, rest⟩
    rw [first]
    exact rest

theorem outcome_ask_eq_ok {operation : Attempt Id α β} {b : β}
    (ok : outcome (ask operation : RunM Id σ α n β) r = (.ok b, r')) :
    operation.run.run = .ok b ∧ r = r' := by
  rw [outcome_ask] at ok
  exact Prod.mk.inj ok

theorem outcome_check_eq_ok {result : Except (Error α) β} {b : β}
    (ok : outcome (check result : RunM Id σ α n β) r = (.ok b, r')) : result = .ok b ∧ r = r' := by
  rw [outcome_check] at ok
  exact Prod.mk.inj ok

/-- Steps that keep a view of the run, also where they fail. -/
def Keeps (view : Run σ α n → γ) (x : RunM Id σ α n β) : Prop :=
  ∀ r, view (outcome x r).2 = view r

namespace Keeps

variable {δ : Type} {view : Run σ α n → γ}

theorem of_eq {x : RunM Id σ α n β} (keeps : Keeps view x) {answer : Except (Error α) β}
    (eq : outcome x r = (answer, r')) : view r' = view r := by
  have kept := keeps r
  rw [eq] at kept
  exact kept

theorem pure (b : β) : Keeps view (Pure.pure b : RunM Id σ α n β) := fun _ => rfl

theorem ask (operation : Attempt Id α β) : Keeps view (RunM.ask operation) := fun _ => rfl

theorem bind {x : RunM Id σ α n β} {f : β → RunM Id σ α n δ} (first : Keeps view x)
    (rest : ∀ b, Keeps view (f b)) : Keeps view (x >>= f) := by
  intro r
  rw [outcome_bind]
  rcases reached : outcome x r with ⟨e | b, r₁⟩
  · exact first.of_eq reached
  · exact (rest b r₁).trans (first.of_eq reached)

theorem map {x : RunM Id σ α n β} (keeps : Keeps view x) (part : γ → δ) :
    Keeps (fun r => part (view r)) x := fun r => congrArg part (keeps r)

end Keeps

end RunM

def extendPath (options : RunOptions) (path : Array (Vector α n)) (x : Vector α n) :
    Array (Vector α n) := if options.isTrajectory then path.push x else path

theorem checkRequest_ofVector [Scalar α] {x : Vector α n}
    (finite : ∀ i : Fin n, Scalar.isFinite (x.get i) = true) {budget : Option Int} {cap limit : Int}
    (resolved : resolveBudget budget cap = (.ok limit : Except (Error α) Int)) :
    checkRequest (.whole n) cap budget (.ofVector x) = .ok (x, limit.toNat) := by
  have entries : (Tensor.ofVector x).toFlat? = some x.toArray := rfl
  have all : x.toArray.all Scalar.isFinite = true := by
    rw [Array.all_eq_true]
    intro i h
    exact finite ⟨i, by simpa using h⟩
  have vector : Tensor.vector? n x.toArray = some x := by
    simp [Tensor.vector?]
  have counted : (Dimension.whole n).isCount x.toArray.size = true := by
    simp [Dimension.isCount]
  unfold checkRequest checkStart checkIterate
  simp only [entries, all, counted, resolved, Bool.not_true, Bool.false_eq_true, if_false,
    if_true, bind, Except.bind, vector]
  rfl

section Accepted

variable [Scalar α] {dimension : Dimension} {start : Tensor α} {x : Vector α n}

theorem finite_of_checkIterate {entries : Array α}
    (ok : checkIterate dimension start = .ok entries) :
    entries.all Scalar.isFinite = true := by
  unfold checkIterate at ok
  split at ok
  case h_1 => cases ok
  case h_2 =>
    split at ok
    case isTrue => cases ok
    case isFalse =>
      split at ok
      case isTrue finite =>
        cases ok
        exact finite
      case isFalse => cases ok

theorem finite_of_checkStart (ok : checkStart dimension start = .ok x) (i : Nat) (h : i < n) :
    Scalar.isFinite x[i] = true := by
  unfold checkStart at ok
  cases checked : checkIterate dimension start with
  | error e =>
      rw [checked] at ok
      cases ok
  | ok entries =>
      have finite := Array.all_eq_true.mp (finite_of_checkIterate checked)
      rw [checked] at ok
      by_cases size : entries.size = n
      · simp only [bind, Except.bind, Tensor.vector?, dif_pos size] at ok
        cases ok
        exact finite i (size ▸ h)
      · simp only [bind, Except.bind, Tensor.vector?, dif_neg size] at ok
        cases ok

/-- A request is accepted if its start is and if its budget can be resolved. -/
theorem checkRequest_eq_ok {cap : Int} {budget : Option Int} {limit : Nat} :
    checkRequest dimension cap budget start = .ok (x, limit) ↔
      checkStart dimension start = .ok x ∧
        ∃ k, (resolveBudget budget cap : Except (Error α) Int) = .ok k ∧ k.toNat = limit := by
  unfold checkRequest
  cases (checkStart dimension start : Except (Error α) (Vector α n)) with
  | error e => simp [bind, Except.bind]
  | ok y =>
      cases (resolveBudget budget cap : Except (Error α) Int) with
      | error e => simp [bind, Except.bind]
      | ok k => simp [bind, Except.bind, pure, Except.pure]

theorem finite_of_checkRequest {cap : Int} {budget : Option Int} {limit : Nat}
    (accepted : checkRequest dimension cap budget start = .ok (x, limit)) (i : Nat) (h : i < n) :
    Scalar.isFinite x[i] = true :=
  finite_of_checkStart (checkRequest_eq_ok.mp accepted).1 i h

theorem limit_pos_of_checkRequest {cap : Int} {budget : Option Int} {limit : Nat}
    (positive : 1 ≤ cap) (accepted : checkRequest dimension cap budget start = .ok (x, limit)) :
    0 < limit := by
  obtain ⟨_, k, resolved, rfl⟩ := checkRequest_eq_ok.mp accepted
  unfold resolveBudget at resolved
  split at resolved
  · cases resolved
    omega
  · split at resolved
    · cases resolved
    · cases resolved
      omega

theorem checkRequest_budget {cap : Int} {budget : Option Int} {limit k : Nat} (positive : 0 < k)
    (accepted : checkRequest dimension cap budget start = .ok (x, limit)) :
    checkRequest dimension cap (some (k : Int)) start = .ok (x, k) := by
  have resolved : (resolveBudget (some (k : Int)) cap : Except (Error α) Int) = .ok k := by
    rw [resolveBudget, if_neg (by omega)]
  exact checkRequest_eq_ok.mpr ⟨(checkRequest_eq_ok.mp accepted).1, k, resolved, by omega⟩

end Accepted

section Calls

variable [Scalar α] {dimension : Dimension} {cap : Int} {options : RunOptions} {s : σ}
  {start : Tensor α} {x : Vector α n} {limit : Nat}

/-- A request that is refused leaves the optimizer as it was. -/
theorem Call.make_of_error {e : Error α}
    (refused : checkRequest (n := n) dimension cap options.budget start = .error e)
    (run : Nat → Vector α n → RunM Id σ α n (RunResult α n)) :
    Id.run (Call.make dimension cap options s start run) = ⟨.error e, s, none, #[]⟩ := by
  unfold Call.make
  rw [refused]
  rfl

theorem Call.make_of_ok
    (accepted : checkRequest dimension cap options.budget start = .ok (x, limit))
    (run : Nat → Vector α n → RunM Id σ α n (RunResult α n)) :
    Id.run (Call.make dimension cap options s start run) =
      match RunM.outcome (run limit x) ⟨s, x, #[], #[]⟩ with
      | (answer, r) => ⟨answer, r.state, some r.iterate, r.events⟩ := by
  unfold Call.make
  rw [accepted]
  rfl

theorem Call.make_of_outcome {run : Nat → Vector α n → RunM Id σ α n (RunResult α n)}
    {answer : Except (Error α) (RunResult α n)} {r : Run σ α n}
    (accepted : checkRequest dimension cap options.budget start = .ok (x, limit))
    (ended : RunM.outcome (run limit x) ⟨s, x, #[], #[]⟩ = (answer, r)) :
    Id.run (Call.make dimension cap options s start run) =
      ⟨answer, r.state, some r.iterate, r.events⟩ := by
  rw [Call.make_of_ok accepted, ended]

theorem Call.make_result
    (accepted : checkRequest dimension cap options.budget start = .ok (x, limit))
    (run : Nat → Vector α n → RunM Id σ α n (RunResult α n)) :
    (Id.run (Call.make dimension cap options s start run)).result =
      (RunM.outcome (run limit x) ⟨s, x, #[], #[]⟩).1 := by
  rw [Call.make_of_ok accepted]

theorem Call.exists_run {run : Nat → Vector α n → RunM Id σ α n (RunResult α n)}
    {result : RunResult α n}
    (accepted : checkRequest dimension cap options.budget start = .ok (x, limit))
    (ok : (Id.run (Call.make dimension cap options s start run)).result = .ok result) :
    ∃ r, RunM.outcome (run limit x) ⟨s, x, #[], #[]⟩ = (.ok result, r) := by
  rw [Call.make_result accepted] at ok
  exact ⟨_, Prod.ext ok rfl⟩

theorem Call.exists_run_of_ok {run : Nat → Vector α n → RunM Id σ α n (RunResult α n)}
    {call : Call σ α n} {result : RunResult α n}
    (called : Id.run (Call.make dimension cap options s start run) = call)
    (ok : call.result = .ok result) :
    ∃ x limit r, checkRequest dimension cap options.budget start = .ok (x, limit) ∧
      RunM.outcome (run limit x) ⟨s, x, #[], #[]⟩ = (.ok result, r) ∧
      call = ⟨.ok result, r.state, some r.iterate, r.events⟩ := by
  rcases requested : (checkRequest dimension cap options.budget start :
    Except (Error α) (Vector α n × Nat)) with e | ⟨x, limit⟩
  · rw [Call.make_of_error requested] at called
    subst called
    cases ok
  · rw [Call.make_of_ok requested] at called
    rcases ran : RunM.outcome (run limit x) ⟨s, x, #[], #[]⟩ with ⟨answer, r⟩
    rw [ran] at called
    subst called
    dsimp only at ok
    subst ok
    exact ⟨x, limit, r, rfl, ran, rfl⟩

end Calls

end Descent
