/-!
# Errors

Why a computation gives no answer.  Each constructor is one cause with the values
that explain it; the wording stands in `Descent.Message`.
-/

namespace Descent

/-- The number of coordinates a function claims to have. -/
inductive Dimension where
  | whole (n : Int)
  | real (d : Float)

/-- A setting, or an argument of an optimizer, that is refused before any iteration. -/
inductive SettingFault (α : Type) where
  | dimensionTooSmall
  | matrixNotSquare (shape : List Nat)
  | vectorShape (rows : Nat) (shape : List Nat)
  | matrixNotSymmetric
  | oddDimension (n : Int)
  | missingMembers (kind : String)
  | notPositiveInteger (dimension : Dimension)
  | iterateNotVector (shape : List Nat)
  | iterateSize (entries : Nat) (dimension : Dimension)
  | iterateNotFinite
  | iterationBudget
  | historyCapacity (n : Int)
  | historySize (n : Int)
  | gradientTolerance
  | wolfeConstants (decrease curvature : α)
  | curvatureThreshold
  | lineSearchBudget
  | iterationCap
  | searchMethod (name : String)
  | radiusRange (least greatest : α)
  | initialRadius
  | ratioThresholds
  | shrinkFactor
  | growFactor

inductive ArgumentFault (α : Type) where
  | differenceStep
  | armijoConstant
  | shrinkRatio
  | wolfeConstants
  | initialStep
  | radius
  | searchMethod (name : String)
  | gradientDisagrees (kind : String) (error tolerance : α)
  | notSymmetric (tolerance : α)

/-- Why a line search returns no step; the last reason is one that an objective gives. -/
inductive SearchFault where
  | notDescent
  | noDecrease
  | stepBound
  | trialsExhausted (trials : Int)
  | underflow
  | reported (text : String)

/-- A failed line search: the reason, the last step length and the evaluations spent. -/
structure SearchFailure (α : Type) where
  fault : SearchFault
  step : α
  evaluations : Nat

inductive Error (α : Type) where
  /-- A division of numbers whose divisor is zero. -/
  | divisionByZero
  /-- A power, or an integer conversion, that leaves the finite range. -/
  | overflow
  /-- A linear system without a unique solution, or a matrix that is not square. -/
  | singular
  /-- Arrays whose shapes do not fit together. -/
  | shapeMismatch
  /-- The largest or smallest entry of an array that has none. -/
  | noEntries
  /-- A coordinate that does not exist. -/
  | indexOutOfRange
  /-- A name that is not in its list. -/
  | unknownName
  /-- A value that is neither a number nor a text where one of these is needed. -/
  | wrongType
  | setting (fault : SettingFault α)
  | argument (fault : ArgumentFault α)
  | lineSearch (failure : SearchFailure α)

end Descent
