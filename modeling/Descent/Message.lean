import Descent.Event
import Descent.Subproblem
import Descent.Decimal.Notation
import Descent.Text.Quoted
import Descent.Text.Shape
/-!
# Messages

The wording of errors, endings and events.
-/

namespace Descent

open Decimal (shortest scientific fixed general)

def Dimension.text : Dimension → String
  | whole n => toString n
  | real d => shortest d

def methodNames : String :=
  "[" ++ ", ".intercalate (SearchMethod.all.map fun s => Text.quoted s.name) ++ "]"

def SettingFault.message : SettingFault Float → String
  | dimensionTooSmall => "dim must be at least 1."
  | matrixNotSquare shape => s!"A must be square, got shape {Text.shape shape}."
  | vectorShape rows shape => s!"b must have shape ({rows},), got {Text.shape shape}."
  | matrixNotSymmetric => "A must be symmetric."
  | oddDimension n => s!"Extended Rosenbrock needs an even dimension >= 2, got {n}."
  | missingMembers kind =>
    s!"{kind} does not implement evaluate, gradient, hessian and num_dimensions."
  | notPositiveInteger d => s!"num_dimensions must be a positive integer, got {d.text}."
  | iterateNotVector shape => s!"Iterate must be a 1-D vector, got shape {Text.shape shape}."
  | iterateSize entries d =>
    s!"Iterate has {entries} entries but the function has {d.text} dimensions."
  | iterateNotFinite => "Starting iterate contains non-finite values."
  | iterationBudget => "max_iterations must be positive, or None for no explicit limit."
  | historyCapacity n => s!"Curvature history size must be at least 1, got {n}."
  | historySize n => s!"history_size must be at least 1, got {n}."
  | gradientTolerance => "gradient_tolerance must be positive."
  | wolfeConstants decrease curvature =>
    s!"Require 0 < c1 < c2 < 1, got c1={shortest decrease}, c2={shortest curvature}."
  | curvatureThreshold => "curvature_epsilon must be non-negative."
  | lineSearchBudget => "max_line_search_iterations must be at least 1."
  | iterationCap => "max_iterations_cap must be at least 1."
  | searchMethod name =>
    s!"Unsupported search method '{name}'. Supported methods: {methodNames}"
  | radiusRange least greatest =>
    "Require 0 < min_radius < max_radius, got "
      ++ s!"min_radius={shortest least}, max_radius={shortest greatest}."
  | initialRadius => "initial_radius must lie in [min_radius, max_radius]."
  | ratioThresholds => "Require 0 <= eta < shrink_threshold < expand_threshold < 1."
  | shrinkFactor => "shrink_factor must lie in (0, 1)."
  | growFactor => "grow_factor must be greater than 1."

def ArgumentFault.message : ArgumentFault Float → String
  | differenceStep => "eps must be positive"
  | armijoConstant => "Armijo constant c must lie in (0, 1)"
  | shrinkRatio => "rho must lie in (0, 1)"
  | wolfeConstants => "Require 0 < c1 < c2 < 1 for Wolfe conditions."
  | initialStep => "Initial step alpha0 must be positive."
  | radius => "Trust-region radius must be positive."
  | searchMethod name => s!"Unsupported search method {Text.quoted name}."
  | gradientDisagrees kind error tolerance =>
    s!"Gradient of {kind} disagrees with finite differences: "
      ++ s!"relative error {scientific 3 error} exceeds {general 6 tolerance}."
  | notSymmetric tolerance => s!"Matrix is not symmetric within tolerance {shortest tolerance}."

def SearchFault.message : SearchFault → String
  | notDescent => "Search direction is not a descent direction."
  | noDecrease => "Backtracking could not satisfy the sufficient decrease condition."
  | stepBound => "Step length reached alpha_max; objective may be unbounded below."
  | trialsExhausted trials => s!"No step satisfying the Wolfe conditions within {trials} trials."
  | underflow => "Step length underflowed without sufficient decrease."
  | reported text => text

def Error.message? : Error Float → Option String
  | setting fault => some fault.message
  | argument fault => some fault.message
  | lineSearch failure => some failure.fault.message
  | _ => none

def Ending.message : Ending Float → String
  | converged => "Gradient tolerance satisfied."
  | iterationLimit limit => s!"Iteration limit of {limit} reached."
  | lineSearchFailed fault => s!"Line search failed: {fault.message}"
  | stagnation leastRadius =>
    s!"Step rejected at the minimum radius {general 6 leastRadius}; "
      ++ "no further progress at current precision."

def Event.message : Event Float → String
  | searchRetried iteration fault =>
    s!"Line search failed at iteration {iteration} ({fault.message}); "
      ++ "resetting curvature history and retrying along steepest descent."
  | lineStep iteration value gradientNorm step pairs =>
    s!"iter {iteration}: f={scientific 6 value} |g|={scientific 3 gradientNorm} "
      ++ s!"alpha={scientific 3 step} pairs={pairs}"
  | lineFinished status iterations value gradientNorm =>
    s!"L-BFGS finished with status {status.name} after {iterations} iterations "
      ++ s!"(f={scientific 6 value}, |g|={scientific 3 gradientNorm})."
  | regionStep iteration value gradientNorm ratio radius isAccepted =>
    s!"iter {iteration}: f={scientific 6 value} |g|={scientific 3 gradientNorm} "
      ++ s!"rho={fixed 3 ratio} radius={scientific 3 radius} "
      ++ (if isAccepted then "accepted" else "rejected")
  | regionCollapsed iteration => s!"Trust region collapsed at iteration {iteration}."
  | regionFinished status iterations value gradientNorm radius =>
    s!"Trust region finished with status {status.name} after {iterations} iterations "
      ++ s!"(f={scientific 6 value}, |g|={scientific 3 gradientNorm}, "
      ++ s!"radius={scientific 3 radius})."

end Descent
