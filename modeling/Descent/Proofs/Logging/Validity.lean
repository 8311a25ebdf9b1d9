import Descent.Logging.Request
import Mathlib.Data.List.Basic
/-!
# Valid patterns

A pattern is valid if it shows every record.  Whether it is can be read off its fields: each needs
the key of an attribute that all records have, and a conversion that suits whatever this attribute
may be.  A text may be of any length and a whole number of any size, so that neither is a character,
and no whole number is sure to have a nearest real one.  Requests with valid patterns, and with
levels that are positive or have a name, are never refused.
-/

namespace Descent.Logging

inductive Kind where
  | text
  | whole
  | real
  | other

/-- The conversions that show every attribute of a kind. -/
def Conversion.suits : Conversion → Kind → Bool
  | shown, _ | quoted, _ | ascii, _ => true
  | decimal, .whole | decimal, .real => true
  | octal, .whole | hexadecimal _, .whole => true
  | scientific _, .real | fixed _, .real | general _, .real => true
  | _, _ => false

def Record.kinds : List (String × Kind) :=
  [("name", .text), ("msg", .text), ("args", .other), ("levelname", .text), ("levelno", .whole),
   ("pathname", .text), ("filename", .text), ("module", .text), ("exc_info", .other),
   ("exc_text", .other), ("stack_info", .other), ("lineno", .whole), ("funcName", .text),
   ("created", .real), ("msecs", .real), ("relativeCreated", .real), ("thread", .whole),
   ("threadName", .text), ("processName", .text), ("process", .whole), ("message", .text),
   ("asctime", .text)]

def Field.kind? (f : Field) : Option Kind :=
  match f.key with
  | some key => Record.kinds.lookup key
  | none => some .other

def Piece.isValid : Piece → Bool
  | .literal _ => true
  | .field f => f.kind?.any f.conversion.suits
  | .broken => false

def Pattern.IsValid (p : Pattern) : Prop := ∀ r : Record, (r.render? p).isSome

namespace Attribute

/-- An attribute as records have it under a name of this kind: a real number is finite. -/
inductive IsOf : Kind → Attribute → Prop
  | text (s : String) : IsOf .text (.text s)
  | whole (k : Int) : IsOf .whole (.whole k)
  | real (x : Instant) : IsOf .real (.real x)
  | other (s : String) : IsOf .other (.other s)

@[irreducible] def beyond : Int := Nat.pow 2 1024

/-- An attribute that only the conversions for its whole kind show. -/
inductive IsAwkward : Kind → Attribute → Prop
  | text {s : String} (none : (Attribute.text s).character? = none) : IsAwkward .text (.text s)
  | whole : IsAwkward .whole (.whole beyond)
  | real (x : Float) : IsAwkward .real (.real x)
  | other (s : String) : IsAwkward .other (.other s)

theorem real?_beyond : (whole beyond).real? = none := by decide +kernel

theorem character?_level (level : Level) : (text level.text).character? = none := by
  unfold Level.text
  repeat' split
  case isFalse => simp [character?, toString]
  all_goals rfl

end Attribute

section Conversions

variable {c : Conversion} {kind : Kind} {a : Attribute}

def Conversion.shows : Conversion → Attribute → Bool
  | shown, _ | quoted, _ | ascii, _ => true
  | character, a => a.character?.isSome
  | decimal, a => a.truncated?.isSome
  | octal, a | hexadecimal _, a => a.whole?.isSome
  | scientific _, a | fixed _, a | general _, a => a.real?.isSome

theorem Field.isSome_show? (f : Field) (a : Attribute) :
    (f.show? a).isSome = f.conversion.shows a := by
  unfold show?
  cases f.conversion <;> simp [Conversion.shows]

theorem Conversion.shows_of_suits (isOf : a.IsOf kind) (suits : c.suits kind = true) :
    c.shows a = true := by
  cases isOf with
  | text | other | whole => cases c <;> first | rfl | cases suits
  | real x =>
      have finite := x.2
      cases c with
      | decimal => simp [shows, Attribute.truncated?, finite]
      | character | octal | hexadecimal => cases suits
      | _ => rfl

theorem Conversion.not_shows_of_not_suits (awkward : a.IsAwkward kind)
    (unsuited : c.suits kind = false) : c.shows a = false := by
  cases awkward with
  | text none =>
      cases c with
      | character => simp [shows, none]
      | shown | quoted | ascii => cases unsuited
      | _ => rfl
  | whole =>
      cases c with
      | character => decide +kernel
      | scientific | fixed | general => simp [shows, Attribute.real?_beyond]
      | _ => cases unsuited
  | real x =>
      cases c with
      | character | octal | hexadecimal => rfl
      | _ => cases unsuited
  | other s =>
      cases c with
      | shown | quoted | ascii => cases unsuited
      | _ => rfl

end Conversions

section Attributes

theorem rel_lookup {α β γ : Type} [BEq γ] {R : α → β → Prop} {xs : List (γ × α)}
    {ys : List (γ × β)} (related : List.Forall₂ (fun x y => x.1 = y.1 ∧ R x.2 y.2) xs ys)
    (key : γ) : Option.Rel R (xs.lookup key) (ys.lookup key) := by
  induction related with
  | nil => exact .none
  | @cons x y xs ys first rest ih =>
      obtain ⟨same, holds⟩ := first
      rw [List.lookup_cons, List.lookup_cons, ← same]
      split
      · exact .some holds
      · exact ih

namespace Record

theorem isOf_common (r : Record) :
    List.Forall₂ (fun x y => x.1 = y.1 ∧ y.2.IsOf x.2) kinds r.common := by
  unfold kinds common
  repeat' first | exact .nil | refine .cons ⟨rfl, by constructor⟩ ?_

def zero : Instant := ⟨0.0, by decide +kernel⟩

/-- A record that is as hard to show as can be. -/
def awkward : Record where
  name := ""
  level := Attribute.beyond
  message := ""
  context :=
    { template := "", arguments := "", pathname := "", filename := "", unit := "",
      line := Attribute.beyond, function := "", created := zero, milliseconds := zero,
      sinceStart := zero, time := "", thread := Attribute.beyond, threadName := "",
      process := Attribute.beyond, processName := "", more := [], table := "" }

theorem isAwkward_common :
    List.Forall₂ (fun x y => x.1 = y.1 ∧ y.2.IsAwkward x.2) kinds awkward.common := by
  unfold kinds common
  repeat' first
    | exact .nil
    | refine .cons ⟨rfl, .text (Attribute.character?_level _)⟩ ?_
    | refine .cons ⟨rfl, .text rfl⟩ ?_
    | refine .cons ⟨rfl, by constructor⟩ ?_

variable {f : Field}

theorem exists_attribute? (r : Record) {kind : Kind} (known : f.kind? = some kind) :
    ∃ a, r.attribute? f.key = some a ∧ a.IsOf kind := by
  unfold Field.kind? at known
  unfold attribute?
  generalize f.key = key? at known ⊢
  rcases key? with _ | key
  · cases known
    exact ⟨_, rfl, .other _⟩
  · have related := rel_lookup r.isOf_common key
    dsimp only at known ⊢
    rw [List.lookup_append]
    generalize kinds.lookup key = kind?, r.common.lookup key = a? at known related ⊢
    cases related with
    | none => cases known
    | some isOf =>
        cases known
        exact ⟨_, rfl, isOf⟩

theorem rel_awkward_attribute? (f : Field) :
    Option.Rel Attribute.IsAwkward f.kind? (awkward.attribute? f.key) := by
  unfold Field.kind? attribute?
  rcases f.key with _ | key
  · exact .some (.other _)
  · exact rel_lookup isAwkward_common key

end Record

end Attributes

section Pieces

open Record (awkward)

theorem Record.isSome_show?_field (r : Record) (f : Field) :
    (r.show? (.field f)).isSome = (r.attribute? f.key).any f.conversion.shows := by
  change ((r.attribute? f.key).bind fun a => (f.show? a).map f.lay).isSome = _
  cases r.attribute? f.key with
  | none => rfl
  | some a => exact Option.isSome_map.trans (f.isSome_show? a)

theorem Piece.isSome_show? {piece : Piece} (valid : piece.isValid = true) (r : Record) :
    (r.show? piece).isSome := by
  cases piece with
  | literal c => rfl
  | broken => cases valid
  | field f =>
      rw [r.isSome_show?_field]
      rcases known : f.kind? with _ | kind
      · simp [isValid, known] at valid
      · have suits : f.conversion.suits kind = true := by simpa [isValid, known] using valid
        obtain ⟨a, found, isOf⟩ := r.exists_attribute? known
        rw [found]
        exact f.conversion.shows_of_suits isOf suits

theorem Piece.isSome_awkward_show? {piece : Piece} (invalid : piece.isValid = false) :
    (awkward.show? piece).isSome = false := by
  cases piece with
  | literal c => cases invalid
  | broken => rfl
  | field f =>
      rw [Record.isSome_show?_field]
      change f.kind?.any f.conversion.suits = false at invalid
      have related := Record.rel_awkward_attribute? f
      generalize f.kind? = kind?, awkward.attribute? f.key = a? at related invalid ⊢
      cases related with
      | none => rfl
      | some isAwkward => exact f.conversion.not_shows_of_not_suits isAwkward invalid

theorem Record.isSome_render?_iff (r : Record) (p : Pattern) :
    (r.render? p).isSome ↔ ∀ piece ∈ p, (r.show? piece).isSome := by
  unfold render?
  rw [Option.isSome_map]
  induction p with
  | nil => simp
  | cons piece p ih =>
      rw [List.mapM_cons, List.forall_mem_cons, ← ih]
      cases r.show? piece with
      | none => simp
      | some cs => cases p.mapM r.show? <;> simp

/-- A pattern shows every record if each of its fields is sure to find what it can show. -/
theorem Pattern.isValid_iff (p : Pattern) : p.IsValid ↔ ∀ piece ∈ p, piece.isValid = true := by
  constructor
  · intro valid piece member
    have shown := ((awkward.isSome_render?_iff p).mp (valid awkward)) piece member
    by_contra invalid
    rw [Piece.isSome_awkward_show? (Bool.of_not_eq_true invalid)] at shown
    cases shown
  · intro valid r
    exact (r.isSome_render?_iff p).mpr fun piece member => Piece.isSome_show? (valid piece member) r

instance (p : Pattern) : Decidable p.IsValid := decidable_of_iff _ p.isValid_iff.symm

theorem Record.render?_messageOnly (r : Record) :
    r.render? Pattern.messageOnly = some r.message := by
  have found : r.attribute? (some "message") = some (.text r.message) := by
    simp [attribute?, common, List.lookup_cons]
  simp [render?, show?, Pattern.messageOnly, Pattern.plain, found, Field.show?, Field.showText,
    Field.lay, Field.has, Attribute.shown]

theorem Pattern.isValid_defaultPattern : Pattern.defaultPattern.IsValid := by decide

end Pieces

section Requests

/-- A positive number, or a name in either case. -/
def LevelRequest.IsStandard : LevelRequest → Prop
  | .number level => 0 < level
  | .name text => Text.uppercase text ∈ Level.names.map Prod.fst

def SettingsRequest.IsStandard (s : SettingsRequest) : Prop :=
  s.level.IsStandard ∧ ∀ text ∈ s.pattern, ∃ p,
    (Pattern.ofText text : Except (Error Float) Pattern) = .ok p ∧ p.IsValid

def Request.IsStandard : Request → Prop
  | .get _ => True
  | .setLevel level => level.IsStandard
  | .configure settings => settings.IsStandard

structure Settings.IsStandard (s : Settings) : Prop where
  level_nonneg : 0 ≤ s.level
  pattern_valid : s.pattern.IsValid

theorem Level.ofName_of_mem {text : String}
    (named : Text.uppercase text ∈ names.map Prod.fst) :
    (ofName text : Except (Error Float) Level) =
      .ok ((names.lookup (Text.uppercase text)).getD warning) := by
  have reserved : ∀ name ∈ names.map Prod.fst, name ≠ "BASIC_FORMAT" ∧ name ≠ "_STYLES" := by
    decide
  obtain ⟨noFormat, noTable⟩ := reserved _ named
  rw [ofName, if_neg noFormat, if_neg noTable]

theorem LevelRequest.IsStandard.level_eq {request : LevelRequest} (standard : request.IsStandard) :
    ∃ level, request.level = .ok level ∧ 0 ≤ level := by
  cases request with
  | number level => exact ⟨level, rfl, Int.le_of_lt standard⟩
  | name text =>
      have nonneg : ∀ name ∈ Level.names.map Prod.fst,
          0 ≤ (Level.names.lookup name).getD Level.warning := by
        decide
      exact ⟨_, Level.ofName_of_mem standard, nonneg _ standard⟩

theorem SettingsRequest.IsStandard.settings_eq {request : SettingsRequest}
    (standard : request.IsStandard) :
    ∃ s, request.settings = .ok s ∧ s.IsStandard := by
  obtain ⟨level, level_eq, nonneg⟩ := standard.1.level_eq
  unfold settings
  rw [level_eq]
  cases asked : request.pattern with
  | none => exact ⟨_, rfl, nonneg, Pattern.isValid_defaultPattern⟩
  | some text =>
      obtain ⟨p, pattern_eq, valid⟩ := standard.2 text asked
      dsimp only
      rw [pattern_eq]
      exact ⟨_, rfl, nonneg, valid⟩

end Requests

end Descent.Logging
