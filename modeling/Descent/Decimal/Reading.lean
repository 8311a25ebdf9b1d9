/-!
# Reading numbers

A real is written as a decimal numeral, or as the name of what is no finite number.
-/

namespace Descent.Decimal

def natOfDigits (cs : List Char) : Nat :=
  cs.foldl (fun n c => 10 * n + (c.toNat - '0'.toNat)) 0

def readSign : List Char → Bool × List Char
  | '-' :: cs => (true, cs)
  | '+' :: cs => (false, cs)
  | cs => (false, cs)

def takeDigits (cs : List Char) : List Char × List Char :=
  (cs.takeWhile Char.isDigit, cs.dropWhile Char.isDigit)

def readExponent : List Char → Option Int
  | [] => some 0
  | c :: cs =>
    if c = 'e' ∨ c = 'E' then
      let (isNegative, cs) := readSign cs
      match takeDigits cs with
      | ([], _) => none
      | (digits, []) =>
        some (if isNegative then -(natOfDigits digits : Int) else natOfDigits digits)
      | _ => none
    else none

def nearest (m : Nat) (e : Int) : Float :=
  match e with
  | .ofNat k => Float.ofScientific m false k
  | .negSucc k => Float.ofScientific m true (k + 1)

def readNumeral (cs : List Char) : Option Float :=
  let (isNegative, cs) := readSign cs
  let (whole, cs) := takeDigits cs
  let (places, cs) := match cs with
    | '.' :: cs => takeDigits cs
    | cs => ([], cs)
  if whole.isEmpty && places.isEmpty then none
  else (readExponent cs).map fun e =>
    let v := nearest (natOfDigits (whole ++ places)) (e - places.length)
    if isNegative then -v else v

def readReal (text : String) : Option Float :=
  match text with
  | "nan" => some (0.0 / 0.0)
  | "inf" => some (1.0 / 0.0)
  | "-inf" => some (-1.0 / 0.0)
  | _ => readNumeral text.toList

end Descent.Decimal
