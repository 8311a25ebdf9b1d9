import Descent.Logging.Conversion
/-!
# Patterns

How a record becomes a line: text with fields such as `%(message)s`.  A text is taken for a pattern
as soon as something in it looks like a field.  Only a record shows whether it is one: where a field
cannot be read, has no attribute or does not suit it, there is no line.
-/

namespace Descent.Logging

inductive Piece where
  | literal (c : Char)
  | field (f : Field)
  /-- What stands after a percent sign and is no field. -/
  | broken

abbrev Pattern := List Piece

namespace Pattern

def isFlag (c : Char) : Bool := c = '#' || c = '0' || c = '+' || c = ' ' || c = '-'

def number (cs : List Char) : Nat := cs.foldl (fun n c => 10 * n + (c.toNat - '0'.toNat)) 0

def greatestWidth : Nat := Nat.pow 2 63 - 1

def greatestPrecision : Nat := Nat.pow 2 31 - 1

def readExtent (greatest : Nat) (cs : List Char) : Option (Nat × List Char) :=
  let k := number (cs.takeWhile Char.isDigit)
  if k ≤ greatest then some (k, cs.dropWhile Char.isDigit) else none

def readPrecision : List Char → Option (Option Nat × List Char)
  | '.' :: cs => (readExtent greatestPrecision cs).map fun (k, rest) => (some k, rest)
  | cs => some (none, cs)

/-- A letter for the size of a number says nothing here. -/
def dropSize : List Char → List Char
  | c :: cs => if c = 'h' ∨ c = 'l' ∨ c = 'L' then cs else c :: cs
  | [] => []

/-- Reads a key in parentheses, if there is one.  No attribute has a key with parentheses. -/
def readKey : List Char → Option (Option String × List Char)
  | '(' :: cs =>
    let inside (c : Char) : Bool := c ≠ '(' && c ≠ ')'
    match cs.dropWhile inside with
    | ')' :: rest => some (some (String.ofList (cs.takeWhile inside)), rest)
    | _ => none
  | cs => some (none, cs)

def readLayout (key : Option String) (cs : List Char) : Option (Field × List Char) := do
  let (width, rest) ← readExtent greatestWidth (cs.dropWhile isFlag)
  let (precision, rest) ← readPrecision rest
  match dropSize rest with
  | c :: rest =>
    let conversion ← Conversion.ofChar? c
    pure (⟨key, cs.takeWhile isFlag, width, precision, conversion⟩, rest)
  | [] => none

def readField (isFirst : Bool) (cs : List Char) : Option (Field × List Char) := do
  let (key, rest) ← readKey cs
  if key.isNone && !isFirst then none else readLayout key rest

/-- Reads a text of at most `fuel` characters; `isFirst` tells whether no field has come yet. -/
def readPieces : (fuel : Nat) → (isFirst : Bool) → List Char → Pattern
  | fuel + 1, isFirst, '%' :: '%' :: cs => .literal '%' :: readPieces fuel isFirst cs
  | fuel + 1, isFirst, '%' :: cs =>
    match readField isFirst cs with
    | some (f, rest) => .field f :: readPieces fuel false rest
    | none => [.broken]
  | fuel + 1, isFirst, c :: cs => .literal c :: readPieces fuel isFirst cs
  | _, _, _ => []

/-- Letters, digits and underscores.  Outside ASCII every character is taken for a letter: no
attribute has one in its key. -/
def isWordChar (c : Char) : Bool := c.isAlphanum || c = '_' || 0x7f < c.toNat

/-- What looks like a conversion, in either case; two letters outside ASCII are in one case an i,
and another is an s. -/
def looksLikeConversion (c : Char) : Bool :=
  ['d', 'i', 'o', 'u', 'x', 'e', 'f', 'g', 'c', 'r', 's', 'a', '%'].contains c.toLower ||
    ['İ', 'ı', 'ſ'].contains c

/-- What follows a width or precision, if there is one; a star also looks like one. -/
def dropExtent? (cs : List Char) : Option (List Char) :=
  if cs.head? = some '*' then some cs.tail
  else if cs.head?.any Char.isDigit then some (cs.dropWhile Char.isDigit)
  else none

/-- Whether a text starts with what looks like a layout; a dot needs a precision after it. -/
def startsWithLayout (cs : List Char) : Bool :=
  let cs := cs.dropWhile isFlag
  let cs := (dropExtent? cs).getD cs
  let cs := match cs with
    | '.' :: rest => (dropExtent? rest).getD cs
    | cs => cs
  cs.head?.any looksLikeConversion

def startsWithField (cs : List Char) : Bool :=
  match cs with
  | '%' :: '(' :: c :: cs =>
    isWordChar c && match cs.dropWhile isWordChar with
      | ')' :: rest => startsWithLayout rest
      | _ => false
  | _ => false

/-- Whether something in a text looks like a field, a doubled percent sign not excepted. -/
def hasField : List Char → Bool
  | [] => false
  | c :: cs => startsWithField (c :: cs) || hasField cs

def plain (key : String) : Piece := .field ⟨some key, [], 0, none, .shown⟩

def messageOnly : Pattern := [plain "message"]

def ofText {α : Type} (text : String) : Except (Error α) Pattern :=
  if text.isEmpty then .ok messageOnly
  else if hasField text.toList then .ok (readPieces text.length true text.toList)
  else .error .unknownName

def defaultPattern : Pattern :=
  [.literal '[', plain "levelname", .literal ']', .literal ' ', plain "name", .literal ':',
   .literal ' ', plain "message"]

end Pattern

namespace Record

def show? (r : Record) : Piece → Option (List Char)
  | .literal c => some [c]
  | .field f => do
    let a ← r.attribute? f.key
    f.lay <$> f.show? a
  | .broken => none

def render? (r : Record) (pattern : Pattern) : Option String :=
  (pattern.mapM r.show?).map fun parts => String.ofList parts.flatten

end Record

end Descent.Logging
