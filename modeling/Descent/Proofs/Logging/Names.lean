import Descent.Logging.Registry
import Mathlib.Data.String.Basic
/-!
# Names of loggers

Every logger that is handed out has the package's name or one below it.  A name that already is
of this kind is kept, any other is put below the package's, and so two names lead to one logger only
if the second is the first put below.
-/

namespace Descent.Logging

def below (name : String) : String := packageName ++ "." ++ name

def InPackage (name : String) : Prop := name = packageName ∨ ∃ rest, name = below rest

theorem below_inj {x y : String} : below x = below y ↔ x = y :=
  String.append_right_inj _

theorem isPrefixOf_iff {name : String} :
    (packageName ++ ".").isPrefixOf name = true ↔ ∃ rest, name = below rest := by
  unfold String.isPrefixOf
  rw [String.startsWith_string_iff]
  constructor
  · rintro ⟨rest, split⟩
    refine ⟨String.ofList rest, String.toList_injective ?_⟩
    rw [below, String.toList_append, String.toList_ofList, split]
  · rintro ⟨rest, rfl⟩
    exact ⟨rest.toList, String.toList_append.symm⟩

theorem fullName_of_inPackage {name : String} (inside : InPackage name) :
    fullName (some name) = name := by
  have kept : (name = packageName || (packageName ++ ".").isPrefixOf name) = true := by
    rwa [Bool.or_eq_true, decide_eq_true_iff, isPrefixOf_iff]
  exact if_pos kept

theorem fullName_of_not_inPackage {name : String} (outside : ¬ InPackage name) :
    fullName (some name) = below name := by
  have moved : ¬ (name = packageName || (packageName ++ ".").isPrefixOf name) = true := by
    rwa [Bool.or_eq_true, decide_eq_true_iff, isPrefixOf_iff]
  exact if_neg moved

theorem inPackage_below (name : String) : InPackage (below name) := .inr ⟨name, rfl⟩

theorem inPackage_fullName (name : Option String) : InPackage (fullName name) := by
  cases name with
  | none => exact .inl rfl
  | some name =>
      by_cases inside : InPackage name
      · rwa [fullName_of_inPackage inside]
      · rw [fullName_of_not_inPackage inside]
        exact inPackage_below name

theorem fullName_getD (name : Option String) :
    fullName (some (name.getD packageName)) = fullName name := by
  cases name with
  | none => exact fullName_of_inPackage (.inl rfl)
  | some name => rfl

/-- One of two names is outside of the package, and the other is that name put below, unless they
are the same. -/
def Shares (x y : String) : Prop :=
  x = y ∨ (¬ InPackage x ∧ y = below x) ∨ (¬ InPackage y ∧ x = below y)

theorem fullName_eq_iff {x y : String} :
    fullName (some x) = fullName (some y) ↔ Shares x y := by
  unfold Shares
  by_cases hx : InPackage x <;> by_cases hy : InPackage y
  · simp [fullName_of_inPackage, hx, hy]
  · rw [fullName_of_inPackage hx, fullName_of_not_inPackage hy]
    have differ : x ≠ y := fun same => hy (same ▸ hx)
    simp [hx, hy, differ]
  · rw [fullName_of_not_inPackage hx, fullName_of_inPackage hy]
    have differ : x ≠ y := fun same => hx (same ▸ hy)
    simp [hx, hy, differ, eq_comm]
  · rw [fullName_of_not_inPackage hx, fullName_of_not_inPackage hy, below_inj]
    have notBelow : y ≠ below x := fun same => hy (same ▸ inPackage_below x)
    have notBelow' : x ≠ below y := fun same => hx (same ▸ inPackage_below y)
    simp [notBelow, notBelow']

end Descent.Logging
