/-!
# Shapes as text
-/

namespace Descent.Text

/-- The extents in parentheses; a single one has a comma after it. -/
def shape : List Nat → String
  | [n] => s!"({n},)"
  | extents => "(" ++ ", ".intercalate (extents.map toString) ++ ")"

end Descent.Text
