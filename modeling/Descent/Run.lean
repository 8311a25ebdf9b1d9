import Descent.Start
import Descent.Objective
import Descent.Event
/-!
# Runs

A run carries the optimizer's state, its current iterate, and a record of what it did.
Its steps may fail; an error ends the run, and all that was done before it stays.
-/

namespace Descent

structure RunOptions where
  budget : Option Int := none
  isTrajectory : Bool := false
  isDebug : Bool := false

structure RunResult (α : Type) (n : Nat) where
  iterate : Vector α n
  value : α
  ending : Ending α
  iterations : Nat
  gradientNorm : α
  evaluations : Nat
  gradients : Nat
  hessians : Nat
  radius : Option α
  trajectory : List (Vector α n)

def RunResult.status {α : Type} {n : Nat} (r : RunResult α n) : Status := r.ending.status

/-- A run under way, with the path and the events that it has recorded. -/
structure Run (σ α : Type) (n : Nat) where
  state : σ
  iterate : Vector α n
  path : Array (Vector α n)
  events : Array (Event α)

abbrev RunM (m : Type → Type) (σ α : Type) (n : Nat) :=
  ExceptT (Error α) (StateT (Run σ α n) m)

namespace RunM

variable {m : Type → Type} [Monad m] {σ α : Type} {n : Nat}

def ask {β : Type} (operation : Attempt m α β) : RunM m σ α n β :=
  ExceptT.mk (StateT.lift operation.run)

def check {β : Type} (outcome : Except (Error α) β) : RunM m σ α n β :=
  ExceptT.mk (pure outcome)

def state : RunM m σ α n σ := do return (← get).state

def update (change : σ → σ) : RunM m σ α n Unit :=
  modify fun r => { r with state := change r.state }

def report (event : Event α) : RunM m σ α n Unit :=
  modify fun r => { r with events := r.events.push event }

def trace (options : RunOptions) (x : Vector α n) : RunM m σ α n Unit :=
  modify fun r => { r with path := if options.isTrajectory then r.path.push x else r.path }

def settle (options : RunOptions) (x : Vector α n) : RunM m σ α n Unit := do
  modify fun r => { r with iterate := x }
  trace options x

section Running

variable (r : Run σ α n)

@[simp] theorem run_check {β : Type} (outcome : Except (Error α) β) :
    (check outcome : RunM m σ α n β).run.run r = pure (outcome, r) := rfl

variable [LawfulMonad m]

theorem run_modify (change : Run σ α n → Run σ α n) :
    (modify change : RunM m σ α n Unit).run.run r = pure (.ok (), change r) := by
  change (Except.ok <$> StateT.modifyGet fun r => ((), change r) : StateT (Run σ α n) m _) r = _
  exact pure_bind _ _

@[simp] theorem run_update (change : σ → σ) :
    (update change : RunM m σ α n Unit).run.run r =
      pure (.ok (), { r with state := change r.state }) := run_modify r _

@[simp] theorem run_report (event : Event α) :
    (report event : RunM m σ α n Unit).run.run r =
      pure (.ok (), { r with events := r.events.push event }) := run_modify r _

@[simp] theorem run_trace (options : RunOptions) (x : Vector α n) :
    (trace options x : RunM m σ α n Unit).run.run r =
      pure (.ok (), { r with path := if options.isTrajectory then r.path.push x else r.path }) :=
  run_modify r _

end Running

end RunM

/-- What a call leaves behind: its answer, the optimizer's state, the last iterate if the
run began, and the events. -/
structure Call (σ α : Type) (n : Nat) where
  result : Except (Error α) (RunResult α n)
  state : σ
  iterate : Option (Vector α n)
  events : Array (Event α)

/-- Makes a run from a starting iterate, given the cap on its iterations.  A start or budget
that is refused leaves the optimizer as it was. -/
def Call.make {m : Type → Type} [Monad m] {σ α : Type} [Scalar α] {n : Nat}
    (dimension : Dimension) (cap : Int) (options : RunOptions) (state : σ) (start : Tensor α)
    (run : (limit : Nat) → Vector α n → RunM m σ α n (RunResult α n)) : m (Call σ α n) :=
  match checkRequest dimension cap options.budget start with
  | .error e => pure ⟨.error e, state, none, #[]⟩
  | .ok (x, limit) => do
    let (result, r) ← (run limit x).run.run ⟨state, x, #[], #[]⟩
    pure ⟨result, r.state, some r.iterate, r.events⟩

end Descent
