/-!
# The exact value of a float

A finite float is a whole number times a power of two.  `Float.dyadic?` reads that form off the
bits, and `Float.extended` gives the number itself, so that floats can be compared with integers
without rounding.
-/

namespace ExprLang
namespace Number

/-- A finite float: `± mantissa · 2 ^ exponent`. -/
structure Dyadic where
  negative : Bool
  mantissa : Nat
  exponent : Int
deriving DecidableEq, Repr

/-- A number on the extended line, or not a number. -/
inductive Extended where
  | finite (value : Rat)
  | infinite (negative : Bool)
  | undefined

/-- Whether the sign bit is set. -/
def signBit (f : Float) : Bool :=
  Nat.pow 2 63 ≤ f.toBits.toNat

/-- The eleven bits of the exponent. -/
def exponentBits (f : Float) : Nat :=
  f.toBits.toNat / Nat.pow 2 52 % Nat.pow 2 11

/-- The fifty-two bits of the fraction. -/
def fractionBits (f : Float) : Nat :=
  f.toBits.toNat % Nat.pow 2 52

/-- Mantissa and exponent of a finite float. -/
def dyadic? (f : Float) : Option Dyadic :=
  if exponentBits f = 2047 then
    none
  else if exponentBits f = 0 then
    some ⟨signBit f, fractionBits f, -1074⟩
  else
    some ⟨signBit f, fractionBits f + Nat.pow 2 52, (exponentBits f : Int) - 1075⟩

/-- Whether a float is not a number. -/
def isUndefined (f : Float) : Bool :=
  exponentBits f = 2047 && fractionBits f != 0

/-- Whether a float is one of the two infinities. -/
def isInfinite (f : Float) : Bool :=
  exponentBits f = 2047 && fractionBits f = 0

theorem isUndefined_of_dyadic
    {f : Float} {d : Dyadic}
    (finite : dyadic? f = some d) :
    isUndefined f = false := by
  unfold dyadic? at finite
  split at finite
  · cases finite
  · next h => simp [isUndefined, h]

theorem isInfinite_of_dyadic
    {f : Float} {d : Dyadic}
    (finite : dyadic? f = some d) :
    isInfinite f = false := by
  unfold dyadic? at finite
  split at finite
  · cases finite
  · next h => simp [isInfinite, h]

/-- Every other float is finite. -/
theorem exists_dyadic
    {f : Float}
    (defined : isUndefined f = false)
    (bounded : isInfinite f = false) :
    ∃ d, dyadic? f = some d := by
  have exponent : exponentBits f ≠ 2047 := by
    intro full
    simp only [isUndefined, isInfinite, full, decide_true, Bool.true_and, bne_eq_false_iff_eq,
      decide_eq_false_iff_not] at defined bounded
    exact bounded defined
  rw [dyadic?, if_neg exponent]
  split <;> exact ⟨_, rfl⟩

/-- The magnitude of a finite float. -/
def Dyadic.magnitude (d : Dyadic) : Rat :=
  if 0 ≤ d.exponent then (d.mantissa * Nat.pow 2 d.exponent.toNat : Nat)
  else mkRat d.mantissa (Nat.pow 2 (-d.exponent).toNat)

/-- The number that a finite float denotes. -/
def Dyadic.value (d : Dyadic) : Rat :=
  if d.negative then -d.magnitude else d.magnitude

/-- The exact value of a float. -/
def extended (f : Float) : Extended :=
  match dyadic? f with
  | some d => .finite d.value
  | none => if fractionBits f = 0 then .infinite (signBit f) else .undefined

/-- The whole part of a finite float, towards zero. -/
def Dyadic.truncate (d : Dyadic) : Int :=
  let whole :=
    if 0 ≤ d.exponent then d.mantissa * Nat.pow 2 d.exponent.toNat
    else d.mantissa / Nat.pow 2 (-d.exponent).toNat
  if d.negative then -(whole : Int) else whole

/-- Whether a float is smaller than zero. -/
def isBelowZero (f : Float) : Bool :=
  match extended f with
  | .finite value => value < 0
  | .infinite negative => negative
  | .undefined => false

end Number
end ExprLang
