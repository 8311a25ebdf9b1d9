import Descent.Benchmark
import Descent.Curvature.Mixed
import Descent.DebugMode
import Descent.Decimal.Reading
import Descent.LineSearch.Formulas
import Descent.Main
import Descent.Subproblem.Shapes
import Descent.Proofs.Curvature.InverseHessian
import Descent.Proofs.Curvature.Operator
import Descent.Proofs.LineSearch.Bracket
import Descent.Proofs.Lbfgs.Monotone
import Descent.Proofs.Lbfgs.Safeguard
import Descent.Proofs.TrustRegion.Monotone
import Descent.Proofs.TrustRegion.Stagnation
import Descent.Proofs.TrustRegion.Radius
import Descent.Proofs.TrustRegion.Rejection
import Descent.Proofs.TrustRegion.Failure
import Descent.Proofs.Curvature.Positive
import Descent.Proofs.LineSearch.Contract
import Descent.Proofs.Lbfgs.Directions
import Descent.Proofs.Lbfgs.Provenance
import Descent.Proofs.Current
import Descent.Proofs.Certificate
import Descent.Proofs.Budget
import Descent.Proofs.Counters
import Descent.Proofs.Truncation
import Descent.Proofs.Independence
import Descent.Proofs.Transparency
import Descent.Proofs.Equivariance
import Descent.Proofs.Curvature.Window
import Descent.Proofs.Curvature.Failure
import Descent.Proofs.Subproblem.Path
import Descent.Proofs.TrustRegion.Quadratic
import Descent.Proofs.LineSearch.Quadratic
import Descent.Proofs.Lbfgs.Storable
import Descent.Proofs.Lbfgs.Isotropic
import Descent.Proofs.Linear.Factor
import Descent.Proofs.Linear.Ridge
import Descent.Proofs.LineSearch.Backtracking
import Descent.Proofs.LineSearch.Forward
import Descent.Proofs.Objective.Minimum
import Descent.Proofs.DebugMode
import Descent.Proofs.Settings
import Descent.Proofs.Logging.Emission
