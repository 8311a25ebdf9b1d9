import Descent.Report
/-!
# Command line

Prints the examples.
-/

open Descent

def main : IO Unit := do
  match Report.all defaultIterationCap with
  | .ok lines => for line in lines do IO.println line
  | .error e => throw (IO.userError (e.message?.getD "no result"))
