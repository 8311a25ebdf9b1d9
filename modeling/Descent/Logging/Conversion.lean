import Descent.Logging.Record
/-!
# Conversions

How one attribute of a record is shown: as a text, a character, or a number in one of the usual
notations, with a sign, a width and a precision.
-/

namespace Descent.Logging

inductive Conversion where
  | shown
  | quoted
  | ascii
  | character
  | decimal
  | octal
  | hexadecimal (isUpper : Bool)
  | scientific (isUpper : Bool)
  | fixed (isUpper : Bool)
  | general (isUpper : Bool)

def Conversion.ofChar? : Char → Option Conversion
  | 's' => some shown
  | 'r' => some quoted
  | 'a' => some ascii
  | 'c' => some character
  | 'd' | 'i' | 'u' => some decimal
  | 'o' => some octal
  | 'x' => some (hexadecimal false)
  | 'X' => some (hexadecimal true)
  | 'e' => some (scientific false)
  | 'E' => some (scientific true)
  | 'f' => some (fixed false)
  | 'F' => some (fixed true)
  | 'g' => some (general false)
  | 'G' => some (general true)
  | _ => none

/-- Which attribute is shown, where none stands for the table of all of them, and how. -/
structure Field where
  key : Option String
  flags : List Char
  width : Nat
  precision : Option Nat
  conversion : Conversion

/-- The parts of what is shown.  Between sign and marker of a number and its digits there may be
zeros. -/
structure Shown where
  isNumber : Bool
  sign : List Char
  marker : List Char
  body : List Char

namespace Field

def has (f : Field) (flag : Char) : Bool := f.flags.contains flag

def showText (f : Field) (s : String) : Shown :=
  ⟨false, [], [], match f.precision with
    | some k => s.toList.take k
    | none => s.toList⟩

def sign (f : Field) (isNegative : Bool) : List Char :=
  if isNegative then ['-']
  else if f.has '+' then ['+']
  else if f.has ' ' then [' ']
  else []

def showWhole (f : Field) (base : Nat) (marker : List Char) (k : Int) : Shown :=
  { isNumber := true
    sign := f.sign (k < 0)
    marker := if f.has '#' then marker else []
    body := Decimal.padLeft (f.precision.getD 0) (Nat.toDigits base k.natAbs) }

def showReal (f : Field) (isUpper : Bool) (text : String) : Shown :=
  let cs := if isUpper then text.toList.map Char.toUpper else text.toList
  let isNegative := cs.head? = some '-'
  ⟨true, f.sign isNegative, [], if isNegative then cs.tail else cs⟩

def places (f : Field) : Nat := f.precision.getD 6

def show? (f : Field) (a : Attribute) : Option Shown :=
  match f.conversion with
  | .shown => some (f.showText a.shown)
  | .quoted => some (f.showText a.quoted)
  | .ascii => some (f.showText (Text.ascii a.quoted))
  | .character => a.character?.map fun c => ⟨false, [], [], [c]⟩
  | .decimal => a.truncated?.map (f.showWhole 10 [])
  | .octal => a.whole?.map (f.showWhole 8 ['0', 'o'])
  | .hexadecimal isUpper => a.whole?.map fun k =>
    let shown := f.showWhole 16 ['0', if isUpper then 'X' else 'x'] k
    if isUpper then { shown with body := shown.body.map Char.toUpper } else shown
  | .scientific isUpper => a.real?.map fun x =>
    f.showReal isUpper (Decimal.scientificWith (f.has '#') f.places x)
  | .fixed isUpper => a.real?.map fun x =>
    f.showReal isUpper (Decimal.fixedWith (f.has '#') f.places x)
  | .general isUpper => a.real?.map fun x =>
    f.showReal isUpper (Decimal.generalWith (f.has '#') (max 1 f.places) x)

/-- Fills up to the width: with spaces on the right, or else with zeros after the sign of a
number, or else with spaces on the left. -/
def lay (f : Field) (s : Shown) : List Char :=
  let missing := f.width - (s.sign.length + s.marker.length + s.body.length)
  if f.has '-' then s.sign ++ s.marker ++ s.body ++ List.replicate missing ' '
  else if s.isNumber && f.has '0' then
    s.sign ++ s.marker ++ List.replicate missing '0' ++ s.body
  else List.replicate missing ' ' ++ s.sign ++ s.marker ++ s.body

end Field

end Descent.Logging
