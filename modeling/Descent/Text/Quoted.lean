import Descent.Text.Printable
/-!
# Quoted text

Text between quotes, with escapes for what could not be read otherwise: the quote
itself, backslashes, and characters that do not print.
-/

namespace Descent.Text

def hex (width n : Nat) : String :=
  let digits := Nat.toDigits 16 n
  String.ofList (List.replicate (width - digits.length) '0' ++ digits)

def escapeCode (c : Char) : String :=
  if c.toNat < 0x100 then "\\x" ++ hex 2 c.toNat
  else if c.toNat < 0x10000 then "\\u" ++ hex 4 c.toNat
  else "\\U" ++ hex 8 c.toNat

def escape (quote c : Char) : String :=
  if c = quote ∨ c = '\\' then String.ofList ['\\', c]
  else if c = '\n' then "\\n"
  else if c = '\r' then "\\r"
  else if c = '\t' then "\\t"
  else if isPrintable c then String.singleton c
  else escapeCode c

/-- Single quotes, unless only those occur in the text. -/
def quoteFor (s : String) : Char := if s.contains '\'' && !s.contains '"' then '"' else '\''

def quoted (s : String) : String :=
  let quote := quoteFor s
  String.singleton quote ++ String.join (s.toList.map (escape quote)) ++ String.singleton quote

def ascii (s : String) : String :=
  String.join (s.toList.map fun c => if c.toNat < 0x80 then String.singleton c else escapeCode c)

end Descent.Text
