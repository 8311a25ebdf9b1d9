import Descent.Session
/-!
# Benchmarks

Repeated runs of one optimizer from the problem's standard start.
-/

namespace Descent.Session

def benchmark (s : Session) : (repeats : Nat) → Except (Error Float)
    ((n : Nat) × RunResult Float n)
  | 0 => .error .noEntries
  | repeats + 1 => do
    let run := s.optimize (Tensor.ofArray (← s.problem.start)) {}
    let result ← run.result
    match repeats with
    | 0 => pure ⟨_, result⟩
    | k + 1 => run.session.benchmark (k + 1)

end Descent.Session
