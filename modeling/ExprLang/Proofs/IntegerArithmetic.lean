import ExprLang.Proofs.WellFormedValues

/-!
# Arithmetic of integers

Both types of integers compute alike: an operator gives the exact number where its type has it, and
reports an overflow elsewhere.  `IntegerType.result` is that rule, and each operator is an instance
of it.  Quotients and remainders are those of division towards zero, which leaves the range in one
place.

* `IntegerType.reports_result`: the two ways in which an exact number can end.
* `inRange_tdiv_iff`: the quotient that is out of range.
* `arithmetic_of_integers`: all operators on integers of any two types.
-/

namespace ExprLang

/-- The two types of integers. -/
inductive IntegerType where
  | signed
  | unsigned

namespace IntegerType

/-- The name of a type. -/
def name : IntegerType → String
  | signed => "int"
  | unsigned => "uint"

/-- Whether a number is in the range of a type. -/
def InRange : IntegerType → Int → Prop
  | signed => InIntRange
  | unsigned => InUIntRange

instance (T : IntegerType) (n : Int) : Decidable (T.InRange n) :=
  match T with
  | signed => inferInstanceAs (Decidable (InIntRange n))
  | unsigned => inferInstanceAs (Decidable (InUIntRange n))

/-- The value of a type that stands for a number in its range. -/
def value : IntegerType → Int → Value
  | signed, n => .int n
  | unsigned, n => .uint n.toNat

@[simp]
theorem value_signed
    (n : Int) :
    signed.value n = .int n := by
  rfl

@[simp]
theorem value_unsigned
    (n : Nat) :
    unsigned.value n = .uint n := by
  rfl

/-- The numbers of the unsigned type are the natural numbers up to its largest. -/
theorem inRange_unsigned_iff
    {n : Int} :
    unsigned.InRange n ↔ ∃ m : Nat, n = m ∧ m ≤ maxUInt := by
  constructor
  · rintro ⟨low, high⟩
    obtain ⟨m, rfl⟩ := Int.eq_ofNat_of_zero_le low
    exact ⟨m, rfl, Int.ofNat_le.mp high⟩
  · rintro ⟨m, rfl, high⟩
    exact ⟨Int.natCast_nonneg m, Int.ofNat_le.mpr high⟩

/-- What an operator makes of an exact number. -/
def result (T : IntegerType) (op : String) (n : Int) (operands : List Int) : Outcome Value :=
  if T.InRange n then .ok (T.value n) else .error (.overflow op (operands.map .number))

/-- An outcome is the value of an exact number if the type has that number, and else an error. -/
def Reports (T : IntegerType) (exact : Int) (overflow : RuntimeError) (outcome : Outcome Value) :
    Prop :=
  (∀ v, outcome = .ok v ↔ T.InRange exact ∧ v = T.value exact) ∧
    ∀ e, outcome = .error e ↔ ¬ T.InRange exact ∧ e = overflow

theorem reports_result
    (T : IntegerType)
    (op : String)
    (n : Int)
    (operands : List Int) :
    T.Reports n (.overflow op (operands.map .number)) (T.result op n operands) := by
  unfold result
  by_cases inRange : T.InRange n
  · rw [if_pos inRange]
    exact ⟨fun v => ⟨fun h => ⟨inRange, (Except.ok.inj h).symm⟩, fun h => by rw [h.2]⟩,
      fun e => ⟨nofun, fun h => absurd inRange h.1⟩⟩
  · rw [if_neg inRange]
    exact ⟨fun v => ⟨nofun, fun h => absurd h.1 inRange⟩,
      fun e => ⟨fun h => ⟨inRange, (Except.error.inj h).symm⟩, fun h => by rw [h.2]⟩⟩

end IntegerType

open IntegerType

variable {T : IntegerType} {a b : Int}

/-! ### Division towards zero -/

/-- The only quotient out of range is that of the smallest signed number and minus one: a divisor of
another magnitude at least halves the dividend. -/
theorem inIntRange_tdiv_iff
    (ha : InIntRange a)
    (nonzero : b ≠ 0) :
    InIntRange (a.tdiv b) ↔ ¬ (a = minInt ∧ b = -1) := by
  have size : (a.tdiv b).natAbs = a.natAbs / b.natAbs := Int.natAbs_tdiv a b
  unfold InIntRange minInt maxInt at *
  by_cases one : b = 1
  · subst one
    rw [Int.tdiv_one]
    omega
  by_cases minusOne : b = -1
  · subst minusOne
    rw [Int.tdiv_neg, Int.tdiv_one]
    omega
  · have halved : a.natAbs / b.natAbs ≤ a.natAbs / 2 :=
      Nat.div_le_div_left (by omega) (by decide)
    omega

/-- A choice by the range of the quotient is one by the operands. -/
theorem guarded_tdiv
    {α : Type}
    (ha : InIntRange a)
    (zero inside outside : α) :
    (if b = 0 then zero else if InIntRange (a.tdiv b) then inside else outside) =
      if b = 0 then zero else if a = minInt ∧ b = -1 then outside else inside := by
  by_cases isZero : b = 0
  · rw [if_pos isZero, if_pos isZero]
  have checked := inIntRange_tdiv_iff ha isZero
  rw [if_neg isZero, if_neg isZero]
  by_cases smallest : a = minInt ∧ b = -1
  · rw [if_neg fun h => checked.mp h smallest, if_pos smallest]
  · rw [if_pos (checked.mpr smallest), if_neg smallest]

/-- No natural number is the smallest signed number. -/
theorem natCast_ne_smallest
    (m n : Nat) :
    ¬ ((m : Int) = minInt ∧ (n : Int) = -1) := by
  omega

theorem inRange_tdiv_iff
    (ha : T.InRange a)
    (hb : T.InRange b)
    (nonzero : b ≠ 0) :
    T.InRange (a.tdiv b) ↔ ¬ (a = minInt ∧ b = -1) := by
  cases T with
  | signed => exact inIntRange_tdiv_iff ha nonzero
  | unsigned =>
      obtain ⟨m, rfl, high⟩ := inRange_unsigned_iff.mp ha
      obtain ⟨n, rfl, -⟩ := inRange_unsigned_iff.mp hb
      rw [← Int.ofNat_tdiv]
      refine iff_of_true (inRange_unsigned_iff.mpr ⟨_, rfl, ?_⟩) (natCast_ne_smallest m n)
      exact Nat.le_trans (Nat.div_le_self m n) high

theorem inRange_tmod
    (ha : T.InRange a)
    (hb : T.InRange b)
    (nonzero : b ≠ 0) :
    T.InRange (a.tmod b) := by
  cases T with
  | signed => exact Value.inIntRange_tmod nonzero hb
  | unsigned =>
      obtain ⟨m, rfl, high⟩ := inRange_unsigned_iff.mp ha
      obtain ⟨n, rfl, -⟩ := inRange_unsigned_iff.mp hb
      rw [← Int.ofNat_tmod]
      exact inRange_unsigned_iff.mpr ⟨_, rfl, Nat.le_trans (Nat.mod_le m n) high⟩

/-- Quotient and remainder make up the dividend; the remainder is smaller than the divisor and zero
or of the sign of the dividend. -/
theorem tdiv_tmod_spec
    (nonzero : b ≠ 0) :
    a = a.tdiv b * b + a.tmod b ∧ (a.tmod b).natAbs < b.natAbs ∧
      (a.tmod b = 0 ∨ (a.tmod b).sign = a.sign) := by
  refine ⟨(Int.tdiv_mul_add_tmod a b).symm, ?_, ?_⟩
  · rw [Int.natAbs_tmod]
    exact Nat.mod_lt _ (Int.natAbs_pos.mpr nonzero)
  · rw [Int.sign_tmod]
    by_cases divides : b ∣ a
    · exact .inl (Int.tmod_eq_zero_of_dvd divides)
    · exact .inr (if_neg divides)

/-! ### The operators on integers of one type -/

namespace Value

section Values

variable (ha : T.InRange a) (hb : T.InRange b)
include ha hb

theorem ring_values :
    (T.value a).add (T.value b) = T.result "+" (a + b) [a, b] ∧
      (T.value a).sub (T.value b) = T.result "-" (a - b) [a, b] ∧
      (T.value a).mul (T.value b) = T.result "*" (a * b) [a, b] := by
  cases T with
  | signed => exact ⟨rfl, rfl, rfl⟩
  | unsigned =>
      obtain ⟨m, rfl, -⟩ := inRange_unsigned_iff.mp ha
      obtain ⟨n, rfl, -⟩ := inRange_unsigned_iff.mp hb
      exact ⟨rfl, rfl, rfl⟩

/-- The quotient of unsigned numbers is not checked: it is in range. -/
theorem div_value :
    (T.value a).div (T.value b) =
      if b = 0 then .error (.divisionByZero "/" a)
      else if a = minInt ∧ b = -1 then .error (.overflow "/" [.number a, .number b])
      else .ok (T.value (a.tdiv b)) := by
  cases T with
  | signed => exact guarded_tdiv ha _ _ _
  | unsigned =>
      obtain ⟨m, rfl, -⟩ := inRange_unsigned_iff.mp ha
      obtain ⟨n, rfl, -⟩ := inRange_unsigned_iff.mp hb
      rw [if_neg (natCast_ne_smallest m n), ← Int.ofNat_tdiv]
      simp only [value_unsigned, div, Int.natCast_eq_zero]

/-- A remainder fails where the quotient does; it is not checked itself. -/
theorem mod_value :
    (T.value a).mod (T.value b) =
      if b = 0 then .error (.divisionByZero "%" a)
      else if a = minInt ∧ b = -1 then .error (.overflow "%" [.number a, .number b])
      else .ok (T.value (a.tmod b)) := by
  cases T with
  | signed => exact guarded_tdiv ha _ _ _
  | unsigned =>
      obtain ⟨m, rfl, -⟩ := inRange_unsigned_iff.mp ha
      obtain ⟨n, rfl, -⟩ := inRange_unsigned_iff.mp hb
      rw [if_neg (natCast_ne_smallest m n), ← Int.ofNat_tmod]
      simp only [value_unsigned, mod, Int.natCast_eq_zero]

end Values

end Value

open Eval (applyBinary)

/-! ### All operators -/

/-- The operators that compute with numbers. -/
def arithmeticOps : List BinaryOp := [.add, .sub, .mul, .div, .mod]

/-- What the operators make of two numbers of one type. -/
structure ExactArithmetic (T : IntegerType) (a b : Int) : Prop where
  add : T.Reports (a + b) (.overflow "+" [.number a, .number b]) ((T.value a).add (T.value b))
  sub : T.Reports (a - b) (.overflow "-" [.number a, .number b]) ((T.value a).sub (T.value b))
  mul : T.Reports (a * b) (.overflow "*" [.number a, .number b]) ((T.value a).mul (T.value b))
  /-- Quotient and remainder fail for a divisor of zero and where the quotient is out of range. -/
  fails : ∀ op ∈ [BinaryOp.div, .mod], ∀ e, applyBinary op (T.value a) (T.value b) = .error e ↔
    b = 0 ∧ e = .divisionByZero op.symbol a ∨
      a = minInt ∧ b = -1 ∧ e = .overflow op.symbol [.number a, .number b]
  /-- Elsewhere they are those of division towards zero. -/
  divides : b ≠ 0 → ¬ (a = minInt ∧ b = -1) → ∃ q r,
    (T.value a).div (T.value b) = .ok (T.value q) ∧ (T.value a).mod (T.value b) = .ok (T.value r) ∧
      T.InRange q ∧ T.InRange r ∧ a = q * b + r ∧ r.natAbs < b.natAbs ∧ (r = 0 ∨ r.sign = a.sign)

/-- What negation makes of a number: only signed numbers have an opposite, the smallest excepted. -/
structure ExactNegation (T : IntegerType) (a : Int) : Prop where
  value : ∀ v, (T.value a).neg = .ok v ↔ T = .signed ∧ a ≠ minInt ∧ v = .int (-a)
  fails : ∀ e, (T.value a).neg = .error e ↔
    T = .signed ∧ a = minInt ∧ e = .overflow "-" [.number a] ∨
      T = .unsigned ∧ e = .unsupportedOperation "-" ["uint"]

theorem exactArithmetic
    (ha : T.InRange a)
    (hb : T.InRange b) :
    ExactArithmetic T a b := by
  obtain ⟨sum, difference, product⟩ := Value.ring_values ha hb
  have quotient := Value.div_value ha hb
  have remainder := Value.mod_value ha hb
  constructor
  case add =>
    rw [sum]
    exact reports_result T "+" (a + b) [a, b]
  case sub =>
    rw [difference]
    exact reports_result T "-" (a - b) [a, b]
  case mul =>
    rw [product]
    exact reports_result T "*" (a * b) [a, b]
  case fails =>
    intro op member e
    obtain ⟨n, guarded⟩ : ∃ n, applyBinary op (T.value a) (T.value b) =
        if b = 0 then .error (.divisionByZero op.symbol a)
        else if a = minInt ∧ b = -1 then .error (.overflow op.symbol [.number a, .number b])
        else .ok (T.value n) := by
      rw [List.mem_cons, List.mem_singleton] at member
      rcases member with rfl | rfl
      · exact ⟨_, quotient⟩
      · exact ⟨_, remainder⟩
    rw [guarded]
    by_cases zero : b = 0
    · simp [zero, eq_comm]
    by_cases smallest : a = minInt ∧ b = -1
    · simp [smallest, eq_comm]
    · simp [zero, smallest, ← and_assoc]
  case divides =>
    intro nonzero inside
    have inRange := (inRange_tdiv_iff ha hb nonzero).mpr inside
    rw [if_neg nonzero, if_neg inside] at quotient remainder
    exact ⟨_, _, quotient, remainder, inRange, inRange_tmod ha hb nonzero, tdiv_tmod_spec nonzero⟩

theorem exactNegation
    (ha : T.InRange a) :
    ExactNegation T a := by
  cases T with
  | unsigned =>
      have outcome : (IntegerType.unsigned.value a).neg =
          .error (.unsupportedOperation "-" ["uint"]) := rfl
      constructor <;> simp [outcome, eq_comm]
  | signed =>
      -- The range has one number more below zero than above.
      have opposite : IntegerType.signed.InRange (-a) ↔ a ≠ minInt := by
        simp only [InRange, InIntRange, minInt, maxInt] at *
        omega
      obtain ⟨value, fails⟩ := reports_result .signed "-" (-a) [a]
      constructor
      case value =>
        intro v
        exact (value v).trans (by simp [opposite])
      case fails =>
        intro e
        exact (fails e).trans (by simp [opposite])

/-- Integers of different types do not mix. -/
theorem applyBinary_mixed
    {S T : IntegerType}
    (mixed : S ≠ T)
    (a b : Int) :
    ∀ op ∈ arithmeticOps, applyBinary op (S.value a) (T.value b) =
      .error (.unsupportedOperation op.symbol [S.name, T.name]) := by
  intro op member
  simp only [arithmeticOps, List.mem_cons, List.not_mem_nil, or_false] at member
  cases S <;> cases T
  case signed.signed => exact absurd rfl mixed
  case unsigned.unsigned => exact absurd rfl mixed
  all_goals rcases member with rfl | rfl | rfl | rfl | rfl <;> rfl

/-- What an operator makes of two numbers of one type is of that type and in range. -/
theorem inRange_of_applyBinary
    (ha : T.InRange a)
    (hb : T.InRange b) :
    ∀ op ∈ arithmeticOps, ∀ v, applyBinary op (T.value a) (T.value b) = .ok v →
      ∃ n, T.InRange n ∧ v = T.value n := by
  intro op member v computed
  have exact := exactArithmetic ha hb
  simp only [arithmeticOps, List.mem_cons, List.not_mem_nil, or_false] at member
  rcases member with rfl | rfl | rfl | quotient
  · exact ⟨_, (exact.add.1 v).mp computed⟩
  · exact ⟨_, (exact.sub.1 v).mp computed⟩
  · exact ⟨_, (exact.mul.1 v).mp computed⟩
  · have succeeds : ¬ (b = 0 ∨ a = minInt ∧ b = -1) := by
      have fails := exact.fails op (by simpa using quotient)
      rintro (zero | smallest)
      · have := (fails _).mpr (.inl ⟨zero, rfl⟩)
        simp [computed] at this
      · have := (fails _).mpr (.inr ⟨smallest.1, smallest.2, rfl⟩)
        simp [computed] at this
    rw [not_or] at succeeds
    obtain ⟨q, r, divided, left, hq, hr, -⟩ := exact.divides succeeds.1 succeeds.2
    rcases quotient with rfl | rfl
    · exact ⟨q, hq, Except.ok.inj (computed.symm.trans divided)⟩
    · exact ⟨r, hr, Except.ok.inj (computed.symm.trans left)⟩

/-- Integer arithmetic is exact or reported, and never leaves the range of a type. -/
theorem arithmetic_of_integers
    {S T : IntegerType}
    (ha : S.InRange a)
    (hb : T.InRange b) :
    (S = T → ExactArithmetic T a b) ∧
      ExactNegation S a ∧
      (S ≠ T → ∀ op ∈ arithmeticOps, applyBinary op (S.value a) (T.value b) =
        .error (.unsupportedOperation op.symbol [S.name, T.name])) ∧
      ∀ op ∈ arithmeticOps, ∀ v, applyBinary op (S.value a) (T.value b) = .ok v →
        ∃ n, S.InRange n ∧ v = S.value n := by
  refine ⟨?_, exactNegation ha, fun mixed => applyBinary_mixed mixed a b, ?_⟩
  · rintro rfl
    exact exactArithmetic ha hb
  · intro op member v computed
    by_cases same : S = T
    · subst same
      exact inRange_of_applyBinary ha hb op member v computed
    · rw [applyBinary_mixed same a b op member] at computed
      cases computed

/-- The quotient of the smallest signed number by minus one is out of range, as is its opposite; by
minus two it has a quotient and a remainder. -/
theorem arithmetic_of_integers_smallest :
    (∃ q r, (Value.int minInt).div (.int (-2)) = .ok (.int q) ∧
      (Value.int minInt).mod (.int (-2)) = .ok (.int r) ∧ minInt = q * -2 + r) ∧
    (Value.int minInt).mod (.int (-1)) = .error (.overflow "%" [.number minInt, .number (-1)]) ∧
    (Value.int minInt).neg = .error (.overflow "-" [.number minInt]) ∧
    (Value.int minInt).mul (.uint 2) = .error (.unsupportedOperation "*" ["int", "uint"]) := by
  have smallest : IntegerType.signed.InRange minInt := by decide
  have halves := arithmetic_of_integers (b := -2) smallest (T := .signed) (by decide)
  have overflows := arithmetic_of_integers (b := -1) smallest (T := .signed) (by decide)
  have mixes := arithmetic_of_integers (b := 2) smallest (T := .unsigned) (by decide)
  obtain ⟨q, r, divided, left, -, -, whole, -⟩ := (halves.1 rfl).divides (by decide) (by decide)
  refine ⟨⟨q, r, divided, left, whole⟩, ?_, ?_, ?_⟩
  · exact ((overflows.1 rfl).fails .mod (by decide) _).mpr (.inr ⟨rfl, rfl, rfl⟩)
  · exact (overflows.2.1.fails _).mpr (.inl ⟨rfl, rfl, rfl⟩)
  · exact mixes.2.2.1 nofun .mul (by decide)

end ExprLang
