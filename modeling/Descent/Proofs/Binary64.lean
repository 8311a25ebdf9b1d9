import Descent.Scalar
import Mathlib
/-!
# Signs of binary64 numbers

What comparisons and products of numbers in 64 bits do to signs, with rounding, infinities and
undefined numbers as they are.  The library's `Float` computes with the mantissa and the exponent
that its bits stand for, so that a product is rounded from an exact one.  An undefined number is
not at most zero either, which is what a guard against radii that are not positive lets pass.
-/

namespace Descent.Binary64

open Float.Model Float.Model.UnpackedFloat

def value (a : Float) : UnpackedFloat := a.toModel.unpack

inductive Positive : UnpackedFloat → Prop
  | finite {mantissa : Nat} {exponent : Int} (pos : 0 < mantissa) :
      Positive (.finite .positive mantissa exponent pos)
  | infinity : Positive (.infinity .positive)

section Order

variable {a b : Float}

theorem value_zero : value 0 = .zero .positive := rfl

theorem le_iff : a ≤ b ↔ (value a).le (value b) = true := decide_eq_true_iff

theorem lt_iff : a < b ↔ (value a).lt (value b) = true := decide_eq_true_iff

theorem isNaN_iff : a.isNaN = true ↔ value a = .notANumber := by
  change (value a).isNaN = true ↔ _
  cases value a <;> simp [UnpackedFloat.isNaN]

theorem compare_swap (u v : UnpackedFloat) : v.compare u = (u.compare v).map Ordering.swap := by
  rcases u with (_ | _) | _ | (_ | _) | ⟨_ | _, m, e, pos⟩ <;>
    rcases v with (_ | _) | _ | (_ | _) | ⟨_ | _, m', e', pos'⟩ <;>
      first
        | rfl
        | simp [UnpackedFloat.compare, Ordering.swap_then, ← Std.OrientedCmp.eq_swap]

theorem compare_eq_none_iff (u v : UnpackedFloat) :
    u.compare v = none ↔ u = .notANumber ∨ v = .notANumber := by
  rcases u with (_ | _) | _ | (_ | _) | ⟨_ | _, m, e, pos⟩ <;>
    rcases v with (_ | _) | _ | (_ | _) | ⟨_ | _, m', e', pos'⟩ <;>
      simp [UnpackedFloat.compare]

theorem isNaN_iff_compare (defined : b.isNaN = false) :
    a.isNaN = true ↔ (value a).compare (value b) = none := by
  have number : value b ≠ .notANumber := fun undefined =>
    Bool.false_ne_true (defined.symm.trans (isNaN_iff.mpr undefined))
  rw [isNaN_iff, compare_eq_none_iff, or_iff_left number]

/-- A comparison with a number fails for those on its other side and for undefined ones. -/
theorem not_le_iff (defined : b.isNaN = false) : ¬ a ≤ b ↔ b < a ∨ a.isNaN = true := by
  rw [le_iff, lt_iff, isNaN_iff_compare defined, UnpackedFloat.le, UnpackedFloat.lt,
    compare_swap (value a) (value b)]
  rcases (value a).compare (value b) with _ | _ | _ | _ <;> decide

theorem not_lt_iff (defined : b.isNaN = false) : ¬ a < b ↔ b ≤ a ∨ a.isNaN = true := by
  rw [le_iff, lt_iff, isNaN_iff_compare defined, UnpackedFloat.le, UnpackedFloat.lt,
    compare_swap (value a) (value b)]
  rcases (value a).compare (value b) with _ | _ | _ | _ <;> decide

theorem defined_of_lt (lt : b < a) : a.isNaN = false := by
  refine eq_false_of_ne_true fun undefined => ?_
  rw [lt_iff, UnpackedFloat.lt, (compare_eq_none_iff _ _).mpr (.inr (isNaN_iff.mp undefined))] at lt
  cases lt

theorem defined_of_le (le : b ≤ a) : a.isNaN = false := by
  refine eq_false_of_ne_true fun undefined => ?_
  rw [le_iff, UnpackedFloat.le, (compare_eq_none_iff _ _).mpr (.inr (isNaN_iff.mp undefined))] at le
  cases le

theorem positive_iff {u : UnpackedFloat} :
    Positive u ↔ u = .infinity .positive ∨ ∃ m e pos, u = .finite .positive m e pos := by
  constructor
  · rintro (@⟨m, e, pos⟩ | _)
    · exact .inr ⟨m, e, pos, rfl⟩
    · exact .inl rfl
  · rintro (rfl | ⟨m, e, pos, rfl⟩)
    · exact .infinity
    · exact .finite pos

theorem pos_iff : 0 < a ↔ Positive (value a) := by
  rw [lt_iff, value_zero, positive_iff]
  rcases value a with (_ | _) | _ | (_ | _) | ⟨_ | _, m, e, pos⟩ <;>
    simp [UnpackedFloat.lt, UnpackedFloat.compare]
  exact pos

theorem not_le_zero_iff : ¬ a ≤ 0 ↔ value a = .notANumber ∨ Positive (value a) := by
  rw [not_le_iff rfl, pos_iff, isNaN_iff, or_comm]

theorem not_le_zero_of_pos (pos : 0 < a) : ¬ a ≤ 0 := not_le_zero_iff.mpr (.inr (pos_iff.mp pos))

theorem not_le_zero_of_le (pos : ¬ a ≤ 0) (le : a ≤ b) : ¬ b ≤ 0 := by
  rw [le_iff] at le
  rcases not_le_zero_iff.mp pos with undefined | positive
  · rw [undefined] at le
    cases le
  · refine not_le_zero_iff.mpr (.inr ?_)
    generalize value a = u, value b = v at positive le
    cases positive <;> rcases v with (_ | _) | _ | (_ | _) | ⟨_ | _, m, e, pos⟩ <;>
      first
        | exact .infinity
        | exact .finite _
        | cases le

theorem pos_of_lt (pos : 0 < a) (lt : a < b) : 0 < b := by
  rw [lt_iff] at lt
  rw [pos_iff] at pos ⊢
  generalize value a = u, value b = v at pos lt ⊢
  cases pos <;> rcases v with (_ | _) | _ | (_ | _) | ⟨_ | _, m, e, pos⟩ <;>
    first
      | exact .infinity
      | exact .finite _
      | cases lt

theorem lt_of_le_zero (nonpos : a ≤ 0) (pos : 0 < b) : a < b := by
  rw [pos_iff] at pos
  rw [le_iff, value_zero] at nonpos
  rw [lt_iff]
  generalize value a = u, value b = v at nonpos pos ⊢
  cases pos <;> rcases u with (_ | _) | _ | (_ | _) | ⟨_ | _, m, e, pos⟩ <;>
    first
      | rfl
      | cases nonpos

theorem isZero_iff : Scalar.isZero a = true ↔ ∃ s, value a = .zero s := by
  rw [Scalar.isZero, Bool.and_eq_true, decide_eq_true_iff, decide_eq_true_iff, le_iff, le_iff,
    value_zero]
  rcases value a with (_ | _) | _ | (_ | _) | ⟨_ | _, m, e, pos⟩ <;>
    simp [UnpackedFloat.le, UnpackedFloat.compare]

theorem neg_of_lt_of_isZero (zero : Scalar.isZero b = true) (lt : a < b) : a < 0 := by
  obtain ⟨s, value_eq⟩ := isZero_iff.mp zero
  rw [lt_iff, value_eq] at lt
  rw [lt_iff, value_zero]
  generalize value a = u at lt
  cases s <;> rcases u with (_ | _) | _ | (_ | _) | ⟨_ | _, m, e, pos⟩ <;> exact lt

end Order

section Rounding

open ExtendedMantissa

theorem mantissa_shiftRight (em : ExtendedMantissa) (k : Nat) :
    (em >>> k).mantissa = em.mantissa >>> k := by
  induction k with
  | zero => rfl
  | succ k ih =>
      have step : em >>> (k + 1) = (em >>> k).shiftRightOne := rfl
      rw [step, Nat.shiftRight_succ, ← ih]
      rfl

theorem le_roundedMantissa (em : ExtendedMantissa) : em.mantissa ≤ em.roundedMantissa := by
  obtain ⟨m, _ | _, _ | _⟩ := em
  · exact le_rfl
  · exact le_rfl
  · exact Nat.le_add_right _ _
  · exact Nat.le_succ _

/-- A positive mantissa of at most 53 bits, with an exponent that is not too small for it. -/
structure Fits (m : Nat) (e : Int) : Prop where
  pos : 0 < m
  lt : m < 2 ^ 53
  le : -1074 ≤ e

def excess (m : Nat) (e : Int) : Nat := (max ((m.log2 : Int) + 1 + e - 53) (-1074) - e).toNat

theorem mantissa_shiftToTargetExponent (m : Nat) (e : Int) :
    (shiftToTargetExponent .binary64 m e .exact).1.mantissa = m / 2 ^ excess m e := by
  rw [← Nat.shiftRight_eq_div_pow]
  exact mantissa_shiftRight _ _

theorem exponent_shiftToTargetExponent (m : Nat) (e : Int) :
    (shiftToTargetExponent .binary64 m e .exact).2 = e + excess m e := rfl

/-- The mantissa of a number that is at least the smallest above zero is not shifted away. -/
theorem fits_shiftToTargetExponent {m : Nat} {e : Int} (pos : 0 < m)
    (large : -1074 ≤ (m.log2 : Int) + e) :
    Fits (shiftToTargetExponent .binary64 m e .exact).1.mantissa
      (shiftToTargetExponent .binary64 m e .exact).2 := by
  rw [mantissa_shiftToTargetExponent, exponent_shiftToTargetExponent]
  have excess_eq : excess m e = (max ((m.log2 : Int) + 1 + e - 53) (-1074) - e).toNat := rfl
  refine ⟨?_, ?_, by omega⟩
  · have shift_le : excess m e ≤ m.log2 := by omega
    exact Nat.div_pos ((Nat.le_log2 pos.ne').mp shift_le) (Nat.two_pow_pos _)
  · have le_shift : m.log2 + 1 ≤ 53 + excess m e := by omega
    rw [Nat.div_lt_iff_lt_mul (Nat.two_pow_pos _), ← pow_add]
    exact Nat.lt_log2_self.trans_le (Nat.pow_le_pow_right two_pos le_shift)

theorem exists_roundWithAccuracy {m : Nat} {e : Int} (s : Sign) (pos : 0 < m)
    (large : -1074 ≤ (m.log2 : Int) + e) :
    ∃ m' e', ∃ fits : Fits m' e',
      roundWithAccuracy .binary64 s m e .exact = .finite s m' e' fits.pos := by
  have first := fits_shiftToTargetExponent pos large
  have rounded_pos := first.pos.trans_le (le_roundedMantissa _)
  have second := fits_shiftToTargetExponent rounded_pos
    (e := (shiftToTargetExponent .binary64 m e .exact).2) (by have := first.le; omega)
  exact ⟨_, _, second, dif_neg second.pos.ne'⟩

theorem positive_packComponents {exponent : BitVec 11} {mantissa : BitVec 52}
    (nonzero : exponent = 0#11 → mantissa ≠ 0#52) (defined : exponent = -1#11 → mantissa = 0#52) :
    Positive (UnpackedFloat.unpack .binary64
      (packComponents .binary64 .positive exponent mantissa)) := by
  unfold UnpackedFloat.unpack
  simp only [unpackSign_packComponents, unpackExponent_packComponents,
    unpackMantissa_packComponents, Sign.ofBitVec_toBitVec]
  split_ifs with infinite number subnormal zero
  · exact .infinity
  · exact absurd (defined infinite) number
  · exact absurd zero (nonzero subnormal)
  · exact .finite _
  · exact .finite _

/-- Packing and unpacking neither changes the sign of a number nor makes it zero; a large one
becomes infinite. -/
theorem positive_pack {m : Nat} {e : Int} (fits : Fits m e) :
    Positive (value (.ofModel (pack (.finite .positive m e fits.pos)))) := by
  change Positive (UnpackedFloat.unpack .binary64 (UnpackedFloat.pack .binary64 _))
  obtain ⟨pos, lt, le⟩ := fits
  unfold UnpackedFloat.pack
  generalize biased_eq :
    (e + Format.binary64.exponentBias + Format.binary64.mantissaBitsWithoutImplicit).toNat =
      biased
  have biased_pos : 0 < biased := by
    have bias : (Format.binary64.exponentBias : Int) = 1023 := rfl
    have bits : (Format.binary64.mantissaBitsWithoutImplicit : Int) = 52 := rfl
    omega
  dsimp only
  split_ifs with large normal
  · exact positive_packComponents (by simp) (by simp)
  · have small : biased < 2 ^ 11 - 1 := by omega
    refine positive_packComponents (fun zero => ?_) fun undefined => ?_
    · have := congrArg BitVec.toNat zero
      rw [BitVec.toNat_ofNat, Nat.mod_eq_of_lt (by omega)] at this
      exact absurd this biased_pos.ne'
    · have := congrArg BitVec.toNat undefined
      rw [BitVec.toNat_ofNat, Nat.mod_eq_of_lt (by omega)] at this
      exact absurd this small.ne
  · have bits : m < 2 ^ 52 := by
      rw [← Nat.log2_lt pos.ne']
      have := (Nat.log2_lt pos.ne').mpr lt
      have : m.log2 + 1 ≠ 53 := normal
      omega
    refine positive_packComponents (fun _ zero => ?_) (by simp)
    have := congrArg BitVec.toNat zero
    rw [BitVec.toNat_ofNat, Nat.mod_eq_of_lt bits] at this
    exact pos.ne' this

theorem log2_mul {a b : Nat} (ha : 2 ^ 52 ≤ a) (hb : 0 < b) : 52 + b.log2 ≤ (a * b).log2 := by
  rw [Nat.le_log2 (Nat.mul_pos (by omega) hb).ne', pow_add]
  exact Nat.mul_le_mul ha (Nat.log2_self_le hb.ne')

end Rounding

section Canonical

/-- A mantissa with an exponent as the bits of a number give them. -/
structure Canonical (m : Nat) (e : Int) : Prop where
  le : -1074 ≤ e
  normal : -1074 < e → 2 ^ 52 ≤ m

theorem canonical_unpack {b : BitVec 64} {s : Sign} {m : Nat} {e : Int} {pos : 0 < m}
    (eq : UnpackedFloat.unpack .binary64 b = .finite s m e pos) : Canonical m e := by
  have bias : (Format.binary64.exponentBias : Int) = 1023 := rfl
  unfold UnpackedFloat.unpack at eq
  dsimp only at eq
  split_ifs at eq with infinite number subnormal zero
  · cases eq
    constructor <;> simp [subnormal, bias]
  · cases eq
    have exponent_ne : (@unpackExponent .binary64 b).toNat ≠ 0 :=
      fun zero => subnormal (BitVec.eq_of_toNat_eq zero)
    refine ⟨by omega, fun _ => ?_⟩
    rw [BitVec.toNat_append, Nat.shiftLeft_eq]
    exact Nat.le_trans (by decide) Nat.left_le_or

theorem value_one : ∃ pos, value 1 = .finite .positive (2 ^ 52) (-52) pos := ⟨by decide, rfl⟩

theorem value_of_not_le_one {a : Float} (large : ¬ a ≤ 1) :
    value a = .notANumber ∨ value a = .infinity .positive ∨
      ∃ m e pos, value a = .finite .positive m e pos ∧ 2 ^ 52 ≤ m ∧ -52 ≤ e := by
  obtain ⟨_, one⟩ := value_one
  rw [le_iff, one] at large
  have canonical {s m e pos} (eq : value a = .finite s m e pos) : Canonical m e :=
    canonical_unpack eq
  generalize value a = u at large canonical
  rcases u with (_ | _) | _ | (_ | _) | ⟨_ | _, m, e, pos⟩
  · exact absurd rfl large
  · exact .inr (.inl rfl)
  · exact .inl rfl
  · exact absurd rfl large
  · exact absurd rfl large
  · exact absurd rfl large
  · have le : -52 ≤ e := by
      by_contra small
      have less : compare e (-52) = .lt := compare_lt_iff_lt.mpr (not_le.mp small)
      simp [UnpackedFloat.le, UnpackedFloat.compare, less] at large
    exact .inr (.inr ⟨m, e, pos, rfl, (canonical rfl).normal (by omega), le⟩)

theorem value_of_not_le_zero {a : Float} (pos : ¬ a ≤ 0) :
    value a = .notANumber ∨ value a = .infinity .positive ∨
      ∃ m e pos, value a = .finite .positive m e pos ∧ -1074 ≤ e := by
  have canonical {s m e pos} (eq : value a = .finite s m e pos) : Canonical m e :=
    canonical_unpack eq
  rcases not_le_zero_iff.mp pos with undefined | positive
  · exact .inl undefined
  · generalize value a = u at positive canonical
    cases positive with
    | infinity => exact .inr (.inl rfl)
    | finite pos => exact .inr (.inr ⟨_, _, pos, rfl, (canonical rfl).le⟩)

theorem value_mul {a b : Float} :
    value (a * b) = value (.ofModel (pack (UnpackedFloat.mul .binary64 (value a) (value b)))) := rfl

theorem value_notANumber : value (.ofModel (pack .notANumber)) = .notANumber := rfl

theorem value_infinity : value (.ofModel (pack (.infinity .positive))) = .infinity .positive := rfl

/-- A product with a factor above one does not underflow. -/
theorem not_le_zero_mul {a b : Float} (large : ¬ a ≤ 1) (pos : ¬ b ≤ 0) : ¬ a * b ≤ 0 := by
  rw [not_le_zero_iff, value_mul]
  rcases value_of_not_le_zero pos with right | right | ⟨m, e, m_pos, right, e_le⟩ <;>
    rcases value_of_not_le_one large with left | left | ⟨m', e', m_pos', left, bits, e_le'⟩ <;>
    rw [left, right]
  case inr.inr.inr.inr =>
    have log_le := log2_mul bits m_pos
    obtain ⟨m'', e'', fits, product⟩ := exists_roundWithAccuracy .positive
      (Nat.mul_pos m_pos' m_pos) (e := e' + e) (by omega)
    have product : UnpackedFloat.mul .binary64 (.finite .positive m' e' m_pos')
        (.finite .positive m e m_pos) = .finite .positive m'' e'' fits.pos := product
    rw [product]
    exact .inr (positive_pack fits)
  all_goals first
    | exact .inl value_notANumber
    | exact .inr (value_infinity ▸ .infinity)

end Canonical

end Descent.Binary64
