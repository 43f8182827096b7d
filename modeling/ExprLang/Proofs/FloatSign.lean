import Mathlib.Algebra.Order.Ring.Int
import Mathlib.Algebra.Order.Ring.Rat
import Mathlib.Data.Nat.Cast.Order.Ring
import ExprLang.Number.FloatText

/-!
# Floats that are read from digits

A number without a sign in front of it reads as a float without a sign: its sign bit is clear, and
it is not one of the floats that are no number.  This is followed through the arithmetic that
reading is made of, on floats taken apart into sign, mantissa and exponent (`Plain`) and back on
their bits (`UnsignedBits`).

* `isUnsigned_nearestFloat`: the float nearest to a decimal number.
* `isUnsigned_readDecimal?`: the float that decimal notation denotes.
* `IsUnsigned.dyadic?`, `IsUnsigned.isBelowZero`: such a float has digits unless it is infinite, and
  is not below zero.
-/

namespace ExprLang
namespace Number

open Float.Model (Format UnpackedFloat)
open Float.Model.UnpackedFloat (Sign)

/-! ### Floats taken apart -/

/-- Whether a float is a number with a positive sign. -/
def Plain : UnpackedFloat → Prop
  | .notANumber => False
  | .infinity sign => sign = .positive
  | .zero sign => sign = .positive
  | .finite sign _ _ _ => sign = .positive

theorem plain_dite
    {c : Prop} [Decidable c]
    {x : c → UnpackedFloat} {y : ¬ c → UnpackedFloat}
    (hx : ∀ h, Plain (x h))
    (hy : ∀ h, Plain (y h)) :
    Plain (if h : c then x h else y h) := by
  split
  · exact hx _
  · exact hy _

theorem plain_ite
    {c : Prop} [Decidable c]
    {x y : UnpackedFloat}
    (hx : Plain x)
    (hy : Plain y) :
    Plain (if c then x else y) := by
  split
  · exact hx
  · exact hy

theorem plain_roundWithAccuracy
    (mantissa : Nat)
    (exponent : Int)
    (accuracy : UnpackedFloat.Accuracy) :
    Plain (.roundWithAccuracy .binary64 .positive mantissa exponent accuracy) := by
  unfold UnpackedFloat.roundWithAccuracy
  exact plain_dite (fun _ => rfl) fun _ => rfl

section Operations

variable {x : UnpackedFloat} {mantissa : Nat} {exponent : Int} {pos : 0 < mantissa}

/-- Multiplying by a positive finite number keeps a float plain. -/
theorem plain_mul
    (hx : Plain x) :
    Plain (.mul .binary64 x (.finite .positive mantissa exponent pos)) := by
  cases x with
  | notANumber => exact hx
  | infinity _ =>
      subst hx
      rfl
  | zero _ =>
      subst hx
      rfl
  | finite _ _ _ _ =>
      subst hx
      exact plain_roundWithAccuracy _ _ _

/-- Dividing by a positive finite number keeps a float plain. -/
theorem plain_div
    (hx : Plain x) :
    Plain (.div .binary64 x (.finite .positive mantissa exponent pos)) := by
  cases x with
  | notANumber => exact hx
  | infinity _ =>
      subst hx
      rfl
  | zero _ =>
      subst hx
      rfl
  | finite _ _ _ _ =>
      subst hx
      exact plain_roundWithAccuracy _ _ _

end Operations

theorem plain_ofScientific
    (digits : Nat)
    (exponent : Int) :
    Plain (.ofScientific .binary64 digits exponent) := by
  unfold UnpackedFloat.ofScientific
  refine plain_dite (fun _ => rfl) fun _ => ?_
  exact plain_ite rfl <| plain_ite rfl <| plain_ite (plain_mul rfl) (plain_div rfl)

theorem plain_ofUInt64
    (n : UInt64) :
    Plain (.ofUInt64 .binary64 n) := by
  unfold UnpackedFloat.ofUInt64 UnpackedFloat.ofNat UnpackedFloat.ofInt UnpackedFloat.normalize
  split
  · next below =>
      rw [compare_lt_iff_lt] at below
      omega
  · rfl
  · exact plain_roundWithAccuracy _ _ _

/-! ### Bits -/

/-- Whether bits are those of a number without a sign. -/
structure UnsignedBits (b : BitVec 64) : Prop where
  positive : b.toNat < 2 ^ 63
  number : b.toNat / 2 ^ 52 = 2047 → b.toNat % 2 ^ 52 = 0

theorem unsignedBits_packComponents
    {exponent : BitVec 11} {fraction : BitVec 52}
    (number : exponent.toNat = 2047 → fraction.toNat = 0) :
    UnsignedBits (UnpackedFloat.packComponents .binary64 .positive exponent fraction) := by
  have bits : (UnpackedFloat.packComponents .binary64 .positive exponent fraction).toNat =
      exponent.toNat * 2 ^ 52 + fraction.toNat := by
    show (0#1 ++ exponent ++ fraction).toNat = _
    rw [BitVec.toNat_append, BitVec.toNat_append, ← Nat.shiftLeft_add_eq_or_of_lt fraction.isLt,
      Nat.shiftLeft_eq]
    simp
  have exponentSmall := exponent.isLt
  have fractionSmall := fraction.isLt
  constructor
  · rw [bits]
    omega
  · rw [bits]
    omega

theorem unsignedBits_pack
    {x : UnpackedFloat}
    (hx : Plain x) :
    UnsignedBits (UnpackedFloat.pack .binary64 x) := by
  cases x with
  | notANumber => exact hx.elim
  | infinity _ =>
      subst hx
      exact unsignedBits_packComponents fun _ => rfl
  | zero _ =>
      subst hx
      exact unsignedBits_packComponents fun _ => rfl
  | finite _ mantissa exponent _ =>
      subst hx
      unfold UnpackedFloat.pack
      dsimp only
      split
      · exact unsignedBits_packComponents fun _ => rfl
      next fits =>
      split
      · refine unsignedBits_packComponents fun full => ?_
        rw [BitVec.toNat_ofNat] at full
        change _ % 2 ^ 11 = 2047 at full
        have small : (exponent + Format.binary64.exponentBias +
            Format.binary64.mantissaBitsWithoutImplicit).toNat + 1 < 2 ^ 11 :=
          Nat.not_le.mp fits
        omega
      · exact unsignedBits_packComponents fun full => absurd full (by decide)

theorem plain_unpack
    {b : BitVec 64}
    (hb : UnsignedBits b) :
    Plain (.unpack .binary64 b) := by
  have sign : @UnpackedFloat.unpackSign .binary64 b = 0#1 := by
    apply BitVec.eq_of_toNat_eq
    have positive := hb.positive
    change (b.extractLsb' 63 1).toNat = 0
    simp [Nat.shiftRight_eq_div_pow]
    omega
  have exponent : (@UnpackedFloat.unpackExponent .binary64 b).toNat =
      b.toNat / 2 ^ 52 := by
    have positive := hb.positive
    simp [UnpackedFloat.unpackExponent, Nat.shiftRight_eq_div_pow]
    omega
  have fraction : (@UnpackedFloat.unpackMantissa .binary64 b).toNat =
      b.toNat % 2 ^ 52 := by
    simp [UnpackedFloat.unpackMantissa]
  have isPositive : Sign.ofBitVec 0#1 = .positive := rfl
  unfold UnpackedFloat.unpack
  dsimp only
  rw [sign, isPositive]
  by_cases full : @UnpackedFloat.unpackExponent .binary64 b = -BitVec.ofNat _ 1
  · have zero : @UnpackedFloat.unpackMantissa .binary64 b = 0#52 := by
      apply BitVec.eq_of_toNat_eq
      refine fraction.trans (hb.number (exponent.symm.trans ?_))
      rw [full]
      rfl
    rw [if_pos full, if_pos zero]
    rfl
  · rw [if_neg full]
    exact plain_ite (plain_dite (fun _ => rfl) fun _ => rfl) rfl

/-! ### Floats -/

/-- Whether a float is a number without a sign. -/
def IsUnsigned (f : Float) : Prop :=
  UnsignedBits f.toBits.toBitVec

theorem isUnsigned_of_plain
    {x : UnpackedFloat}
    (hx : Plain x) :
    IsUnsigned ⟨Float.Model.pack x⟩ :=
  unsignedBits_pack hx

theorem IsUnsigned.plain
    {f : Float}
    (h : IsUnsigned f) :
    Plain f.toModel.unpack :=
  plain_unpack h

/-- Whether a float that is taken apart is positive and finite. -/
def isPositiveFinite : UnpackedFloat → Bool
  | .finite .positive _ _ _ => true
  | _ => false

theorem exists_of_isPositiveFinite
    {x : UnpackedFloat}
    (h : isPositiveFinite x = true) :
    ∃ mantissa exponent pos, x = .finite .positive mantissa exponent pos := by
  cases x with
  | finite sign mantissa exponent pos =>
      cases sign with
      | positive => exact ⟨mantissa, exponent, pos, rfl⟩
      | negative => exact absurd h Bool.false_ne_true
  | notANumber | infinity | zero => exact absurd h Bool.false_ne_true

theorem isPositiveFinite_powersOfTen :
    ∀ e : Fin Float.exactlyRepresentablePowersOfTen.size,
      isPositiveFinite Float.exactlyRepresentablePowersOfTen[e].toModel.unpack = true := by
  decide +kernel

section Arithmetic

variable {f power : Float}

theorem IsUnsigned.mul
    (hf : IsUnsigned f)
    (hpower : isPositiveFinite power.toModel.unpack = true) :
    IsUnsigned (f * power) := by
  obtain ⟨mantissa, exponent, pos, same⟩ := exists_of_isPositiveFinite hpower
  have product : Plain (.mul .binary64 f.toModel.unpack power.toModel.unpack) := by
    rw [same]
    exact plain_mul hf.plain
  exact isUnsigned_of_plain product

theorem IsUnsigned.div
    (hf : IsUnsigned f)
    (hpower : isPositiveFinite power.toModel.unpack = true) :
    IsUnsigned (f / power) := by
  obtain ⟨mantissa, exponent, pos, same⟩ := exists_of_isPositiveFinite hpower
  have quotient : Plain (.div .binary64 f.toModel.unpack power.toModel.unpack) := by
    rw [same]
    exact plain_div hf.plain
  exact isUnsigned_of_plain quotient

end Arithmetic

theorem isUnsigned_ofScientific
    (digits : Nat)
    (down : Bool)
    (exponent : Nat) :
    IsUnsigned (Float.ofScientific digits down exponent) := by
  unfold Float.ofScientific
  split
  · next small =>
      have power := isPositiveFinite_powersOfTen ⟨exponent, Nat.lt_succ_of_le small.2⟩
      have whole : IsUnsigned digits.toUInt64.toFloat :=
        isUnsigned_of_plain (plain_ofUInt64 _)
      dsimp only
      split
      · exact whole.div power
      · exact whole.mul power
  · exact isUnsigned_of_plain (plain_ofScientific _ _)

theorem isUnsigned_infinity : IsUnsigned (1.0 / 0.0) := by
  constructor <;> decide +kernel

/-- The float nearest to a decimal number has no sign. -/
theorem isUnsigned_nearestFloat
    (digits : Nat)
    (exponent : Int) :
    IsUnsigned (nearestFloat digits exponent) := by
  have zero : IsUnsigned 0.0 := isUnsigned_ofScientific 0 true 1
  unfold nearestFloat
  dsimp only
  split
  · exact zero
  split
  · exact isUnsigned_infinity
  split
  · exact zero
  split
  · exact isUnsigned_ofScientific _ _ _
  · exact isUnsigned_ofScientific _ _ _

/-- What decimal notation without a sign denotes has none. -/
theorem isUnsigned_readDecimal?
    {cs : List Char} {f : Float}
    (h : readDecimal? cs = some f) :
    IsUnsigned f := by
  unfold readDecimal? at h
  dsimp only at h
  split at h <;> split at h
  · cases h
  · obtain ⟨e, -, rfl⟩ := Option.map_eq_some_iff.mp h
    exact isUnsigned_nearestFloat _ _
  · cases h
  · obtain ⟨e, -, rfl⟩ := Option.map_eq_some_iff.mp h
    exact isUnsigned_nearestFloat _ _

section Sign

variable {f : Float}

theorem IsUnsigned.signBit
    (h : IsUnsigned f) :
    signBit f = false := by
  have bits : f.toBits.toNat < 2 ^ 63 := h.positive
  simpa [Number.signBit] using bits

/-- A float without a sign is infinite if it has no digits. -/
theorem IsUnsigned.exponentBits
    (h : IsUnsigned f)
    (finite : isInfinite f = false) :
    exponentBits f ≠ 2047 := by
  have bits : f.toBits.toNat < 2 ^ 63 := h.positive
  have exponent : Number.exponentBits f = f.toBits.toNat / 2 ^ 52 := by
    show f.toBits.toNat / 2 ^ 52 % 2 ^ 11 = _
    omega
  intro full
  have noFraction : fractionBits f = 0 := h.number (exponent.symm.trans full)
  simp [isInfinite, full, noFraction] at finite

/-- A float without a sign has digits, and no sign in front of them, unless it is infinite. -/
theorem IsUnsigned.dyadic?
    (h : IsUnsigned f)
    (finite : isInfinite f = false) :
    ∃ d, Number.dyadic? f = some d ∧ d.negative = false := by
  unfold Number.dyadic?
  rw [if_neg (h.exponentBits finite)]
  split
  · exact ⟨_, rfl, h.signBit⟩
  · exact ⟨_, rfl, h.signBit⟩

theorem Dyadic.magnitude_nonneg
    (d : Dyadic) :
    0 ≤ d.magnitude := by
  unfold Dyadic.magnitude
  split
  · exact Nat.cast_nonneg _
  · exact Rat.mkRat_nonneg (Int.natCast_nonneg _) _

/-- A float without a sign is not below zero. -/
theorem IsUnsigned.isBelowZero
    (h : IsUnsigned f) :
    isBelowZero f = false := by
  cases finite : isInfinite f with
  | false =>
      obtain ⟨d, bits, positive⟩ := h.dyadic? finite
      simpa [Number.isBelowZero, extended, bits, Dyadic.value, positive] using
        not_lt.mpr d.magnitude_nonneg
  | true =>
      simp only [isInfinite, Bool.and_eq_true, decide_eq_true_eq] at finite
      simp [Number.isBelowZero, extended, Number.dyadic?, finite.1, finite.2, h.signBit]

end Sign

end Number
end ExprLang
