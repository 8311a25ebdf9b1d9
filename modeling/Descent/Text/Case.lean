/-!
# Letter case

Upper and lower case for names that are compared without regard to case.  The names
have Latin letters only, so what counts beside these are the characters outside ASCII
whose other case is a Latin letter.
-/

namespace Descent.Text

/-- Lower case of the letters A to Z.  The Kelvin sign also has a Latin lower case. -/
def lowercase (s : String) : String :=
  s.map fun c => if c = '\u212a' then 'k' else c.toLower

/-- Upper case of a character.  Beside the letters a to z the dotless i, the long s and two
ligatures have a Latin upper case. -/
def upper (c : Char) : List Char :=
  if c = 'ı' then ['I'] else if c = 'ſ' then ['S'] else if c = 'ﬅ' ∨ c = 'ﬆ' then ['S', 'T']
  else [c.toUpper]

def uppercase (s : String) : String := String.ofList (s.toList.flatMap upper)

end Descent.Text
