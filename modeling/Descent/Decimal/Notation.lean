import Descent.Decimal.Digits
/-!
# Decimal notations

How numbers are written: with an exponent, with a fixed number of places, with a given
number of significant digits, or with as few digits as read back.
-/

namespace Descent.Decimal

def signed (isNegative : Bool) (text : String) : String :=
  if isNegative then "-" ++ text else text

def padLeft (width : Nat) (cs : List Char) : List Char :=
  List.replicate (width - cs.length) '0' ++ cs

def exponentText (e : Int) : String :=
  let sign := if e < 0 then "-" else "+"
  "e" ++ sign ++ String.ofList (padLeft 2 (Nat.toDigits 10 e.natAbs))

def pointed (keepsPoint : Bool) (whole places : List Char) : String :=
  if places.isEmpty && !keepsPoint then String.ofList whole
  else String.ofList whole ++ "." ++ String.ofList places

namespace Digits

def withExponent (d : Digits) (keepsPoint : Bool := false) : String :=
  pointed keepsPoint (d.chars.take 1) (d.chars.drop 1) ++ exponentText d.exponent

def positional (d : Digits) (keepsPoint : Bool := false) : String :=
  match d.exponent with
  | .ofNat e =>
    let whole := d.chars.take (e + 1)
    pointed keepsPoint (whole ++ List.replicate (e + 1 - whole.length) '0') (d.chars.drop (e + 1))
  | .negSucc e => pointed keepsPoint ['0'] (List.replicate e '0' ++ d.chars)

end Digits

def writeWith (finite : (significand : Nat) → (exponent : Int) → String) (v : Float) : String :=
  match Binary.ofFloat v with
  | .nan => "nan"
  | .infinite isNegative => signed isNegative "inf"
  | .finite isNegative significand exponent => signed isNegative (finite significand exponent)

def scientificWith (keepsPoint : Bool) (places : Nat) : Float → String :=
  writeWith fun significand exponent =>
    let d : Digits := if significand = 0 then ⟨0, places + 1, 0⟩
      else Digits.rounded (Ratio.ofPower significand 2 exponent) (places + 1)
    d.withExponent keepsPoint

def fixedWith (keepsPoint : Bool) (places : Nat) : Float → String :=
  writeWith fun significand exponent =>
    let units := ((Ratio.ofPower significand 2 exponent).scale places).round
    let cs := padLeft (places + 1) (Nat.toDigits 10 units)
    pointed keepsPoint (cs.take (cs.length - places)) (cs.drop (cs.length - places))

/-- `count` significant digits, or fewer without the zeros at the end, unless these are to be kept
with the point; an exponent for numbers below `1e-4` and from `10 ^ count` on. -/
def generalWith (keepsZeros : Bool) (count : Nat) : Float → String :=
  writeWith fun significand exponent =>
    let d : Digits := if significand = 0 then ⟨0, count, 0⟩
      else Digits.rounded (Ratio.ofPower significand 2 exponent) count
    let written := if keepsZeros then d else d.trim
    if -4 ≤ d.exponent ∧ d.exponent < count then written.positional keepsZeros
    else written.withExponent keepsZeros

def scientific : (places : Nat) → Float → String := scientificWith false

def fixed : (places : Nat) → Float → String := fixedWith false

def general : (count : Nat) → Float → String := generalWith false

/-- The fewest digits that read back; an exponent for numbers below `1e-4` and from `1e16`
on, and otherwise at least one place. -/
def shortest : Float → String := writeWith fun significand exponent =>
  if significand = 0 then "0.0"
  else
    let d := Digits.shortest significand exponent
    if -4 ≤ d.exponent ∧ d.exponent < 16 then
      let text := d.positional
      if d.count ≤ d.exponent.toNat + 1 ∧ 0 ≤ d.exponent then text ++ ".0" else text
    else d.withExponent

end Descent.Decimal
