import Mathlib.Order.WithBot
import Mathlib.Order.Defs.LinearOrder
import Mathlib.Algebra.Order.Ring.Rat
import ExprLang.Eval.Evaluator
import ExprLang.Proofs.ValueEquality

/-!
# The order of values

Numbers of all types, strings, octets, timestamps and durations are the classes of values that can
be compared.  Each of them is measured by a linear order, from which the laws of the comparison follow.

* `OrderClass.Scale`: the linear order of a class.
* `order?_eq_some_iff`: values are compared as their places on one scale.
* `equals_iff_of_measure?`: equal values have one place.
* `compare_isTotalPreorder`: the laws of the comparison and of the operators that use it.
-/

namespace ExprLang

namespace Number

/-- The place of a number on the extended line. -/
def Extended.place? : Extended → Option (WithBot (WithTop ℚ))
  | .finite q => some (q : WithTop ℚ)
  | .infinite true => some ⊥
  | .infinite false => some (⊤ : WithTop ℚ)
  | .undefined => none

theorem Extended.exists_place?
    {m : Extended}
    (defined : m ≠ .undefined) :
    ∃ x, m.place? = some x := by
  rcases m with p | (_ | _) | _
  case undefined => exact absurd rfl defined
  all_goals exact ⟨_, rfl⟩

theorem Extended.place?_eq_some_inj
    {m n : Extended} {x y : WithBot (WithTop ℚ)}
    (hm : m.place? = some x)
    (hn : n.place? = some y) :
    x = y ↔ m = n ∧ m ≠ .undefined := by
  rcases m with p | (_ | _) | _ <;> cases hm <;> rcases n with q | (_ | _) | _ <;> cases hn <;>
    simp

theorem finite_lt_top
    (q : ℚ) :
    ((q : WithTop ℚ) : WithBot (WithTop ℚ)) < ⊤ :=
  WithBot.coe_lt_coe.mpr (WithTop.coe_lt_top q)

/-- Numbers are compared as places on the extended line. -/
theorem Extended.order?_eq_some_iff
    {m n : Extended} {o : Ordering} :
    m.order? n = some o ↔ ∃ x y, m.place? = some x ∧ n.place? = some y ∧ compare x y = o := by
  rcases m with p | (_ | _) | _ <;> rcases n with q | (_ | _) | _ <;>
    simp [order?, place?, finite_lt_top,
      LinearOrder.compare_eq_compareOfLessAndEq, compareOfLessAndEq]

end Number

/-- The classes of values that have an order. -/
inductive OrderClass where
  | number
  | string
  | bytes
  | timestamp
  | duration

namespace OrderClass

/-- What the values of a class are measured by. -/
def Scale : OrderClass → Type
  | number => WithBot (WithTop ℚ)
  | string => List Char
  | bytes => List UInt8
  | timestamp => Int
  | duration => Int

instance (c : OrderClass) : Ord c.Scale :=
  match c with
  | number => inferInstanceAs (Ord (WithBot (WithTop ℚ)))
  | string => inferInstanceAs (Ord (List Char))
  | bytes => inferInstanceAs (Ord (List UInt8))
  | timestamp => inferInstanceAs (Ord Int)
  | duration => inferInstanceAs (Ord Int)

instance (c : OrderClass) : Std.TransOrd c.Scale :=
  match c with
  | number => inferInstanceAs (Std.TransOrd (WithBot (WithTop ℚ)))
  | string => inferInstanceAs (Std.TransOrd (List Char))
  | bytes => inferInstanceAs (Std.TransOrd (List UInt8))
  | timestamp => inferInstanceAs (Std.TransOrd Int)
  | duration => inferInstanceAs (Std.TransOrd Int)

instance (c : OrderClass) : Std.LawfulEqOrd c.Scale :=
  match c with
  | number => inferInstanceAs (Std.LawfulEqOrd (WithBot (WithTop ℚ)))
  | string => inferInstanceAs (Std.LawfulEqOrd (List Char))
  | bytes => inferInstanceAs (Std.LawfulEqOrd (List UInt8))
  | timestamp => inferInstanceAs (Std.LawfulEqOrd Int)
  | duration => inferInstanceAs (Std.LawfulEqOrd Int)

end OrderClass

namespace Value

variable {a b c v : Value} {k : OrderClass} {o : Ordering}

/-- The class that a value belongs to; a float that is not a number belongs to none. -/
def orderClass? : Value → Option OrderClass
  | int _ => some .number
  | uint _ => some .number
  | float f => if Number.isUndefined f then none else some .number
  | string _ => some .string
  | bytes _ => some .bytes
  | timestamp _ => some .timestamp
  | duration _ => some .duration
  | _ => none

/-- Whether two values are in one class. -/
def Comparable (a b : Value) : Prop :=
  ∃ k, a.orderClass? = some k ∧ b.orderClass? = some k

/-- The place of a value on the scale of a class, if it belongs to that class. -/
def measure? : (k : OrderClass) → Value → Option k.Scale
  | .number, v => v.number?.bind Number.Extended.place?
  | .string, string s => some s.toList
  | .bytes, bytes data => some data
  | .timestamp, timestamp t => some t.instant
  | .duration, duration d => some d.micros
  | _, _ => none

theorem orderClass?_eq_some_iff :
    v.orderClass? = some k ↔ ∃ x, v.measure? k = some x := by
  constructor
  · intro ofClass
    cases v
    case float f =>
      rw [orderClass?] at ofClass
      split at ofClass
      · cases ofClass
      next defined =>
        cases ofClass
        rw [← Number.extended_eq_undefined_iff] at defined
        exact Number.Extended.exists_place? defined
    all_goals cases ofClass <;> exact ⟨_, rfl⟩
  · rintro ⟨x, measured⟩
    cases k
    case number =>
      obtain ⟨m, number, hm⟩ := Option.bind_eq_some_iff.mp measured
      cases v <;> cases number
      case float f =>
        have defined : Number.isUndefined f ≠ true := by
          rw [ne_eq, ← Number.extended_eq_undefined_iff]
          intro undefined
          rw [undefined] at hm
          cases hm
        rw [orderClass?, if_neg defined]
      all_goals rfl
    all_goals
      cases v <;> cases measured
      rfl

theorem order?_of_number?
    {m n : Number.Extended}
    (ha : a.number? = some m)
    (hb : b.number? = some n) :
    a.order? b = m.order? n := by
  cases a <;> cases ha <;> cases b <;> cases hb <;> rfl

/-- Values are compared as their places on the scale of one class. -/
theorem order?_eq_some_iff :
    a.order? b = some o ↔
      ∃ k x y, a.measure? k = some x ∧ b.measure? k = some y ∧ Ord.compare x y = o := by
  constructor
  · intro ordered
    unfold order? at ordered
    split at ordered
    · exact ⟨.string, _, _, rfl, rfl, Option.some.inj ordered⟩
    · exact ⟨.bytes, _, _, rfl, rfl, Option.some.inj ordered⟩
    · exact ⟨.timestamp, _, _, rfl, rfl, Option.some.inj ordered⟩
    · exact ⟨.duration, _, _, rfl, rfl, Option.some.inj ordered⟩
    · split at ordered
      next ha hb =>
        obtain ⟨x, y, hx, hy, compared⟩ := Number.Extended.order?_eq_some_iff.mp ordered
        exact ⟨.number, x, y, Option.bind_eq_some_iff.mpr ⟨_, ha, hx⟩,
          Option.bind_eq_some_iff.mpr ⟨_, hb, hy⟩, compared⟩
      · cases ordered
  · rintro ⟨k, x, y, hx, hy, rfl⟩
    cases k
    case number =>
      obtain ⟨m, ha, hx⟩ := Option.bind_eq_some_iff.mp hx
      obtain ⟨n, hb, hy⟩ := Option.bind_eq_some_iff.mp hy
      rw [order?_of_number? ha hb]
      exact Number.Extended.order?_eq_some_iff.mpr ⟨x, y, hx, hy, rfl⟩
    all_goals
      cases a <;> cases hx
      cases b <;> cases hy
      rfl

/-- Values of one class are equal if they have one place. -/
theorem equals_iff_of_measure?
    {x y : k.Scale}
    (hx : a.measure? k = some x)
    (hy : b.measure? k = some y) :
    a.equals b = true ↔ x = y := by
  cases k
  case number =>
    obtain ⟨m, ha, hx⟩ := Option.bind_eq_some_iff.mp hx
    obtain ⟨n, hb, hy⟩ := Option.bind_eq_some_iff.mp hy
    rw [equals_iff_of_atom? (atom?_of_number? ha) (atom?_of_number? hb)]
    refine Iff.trans ?_ (Number.Extended.place?_eq_some_inj hx hy).symm
    simp
  case string =>
    cases a <;> cases hx
    cases b <;> cases hy
    exact decide_eq_true_iff.trans String.toList_inj.symm
  all_goals
    cases a <;> cases hx
    cases b <;> cases hy
    simp only [equals, decide_eq_true_iff]
    rfl

/-! ### Comparison -/

theorem compare_eq_ok_iff :
    a.compare b = .ok o ↔ a.order? b = some o := by
  unfold compare
  cases a.order? b with
  | none => exact ⟨nofun, nofun⟩
  | some p => exact ⟨fun h => by cases h; rfl, fun h => by cases h; rfl⟩

theorem compare_eq_error_iff :
    a.compare b = .error (.valuesNotComparable a b) ↔ a.order? b = none := by
  unfold compare
  cases a.order? b with
  | none => exact ⟨fun _ => rfl, fun _ => rfl⟩
  | some p => exact ⟨nofun, nofun⟩

/-- Comparable values are compared as their places on one scale. -/
theorem compare_eq_ok_iff_of_measure? :
    a.compare b = .ok o ↔
      ∃ k x y, a.measure? k = some x ∧ b.measure? k = some y ∧ Ord.compare x y = o :=
  compare_eq_ok_iff.trans order?_eq_some_iff

theorem comparable_iff :
    Comparable a b ↔ ∃ o, a.compare b = .ok o := by
  constructor
  · rintro ⟨k, ha, hb⟩
    obtain ⟨x, hx⟩ := orderClass?_eq_some_iff.mp ha
    obtain ⟨y, hy⟩ := orderClass?_eq_some_iff.mp hb
    exact ⟨_, compare_eq_ok_iff_of_measure?.mpr ⟨k, x, y, hx, hy, rfl⟩⟩
  · rintro ⟨o, compared⟩
    obtain ⟨k, x, y, hx, hy, -⟩ := compare_eq_ok_iff_of_measure?.mp compared
    exact ⟨k, orderClass?_eq_some_iff.mpr ⟨x, hx⟩, orderClass?_eq_some_iff.mpr ⟨y, hy⟩⟩

theorem compare_eq_error_iff_not_comparable :
    a.compare b = .error (.valuesNotComparable a b) ↔ ¬ Comparable a b := by
  rw [compare_eq_error_iff, comparable_iff, Option.eq_none_iff_forall_ne_some, not_exists]
  exact forall_congr' fun o => not_congr compare_eq_ok_iff.symm

theorem compare_swap
    (compared : a.compare b = .ok o) :
    b.compare a = .ok o.swap := by
  obtain ⟨k, x, y, hx, hy, rfl⟩ := compare_eq_ok_iff_of_measure?.mp compared
  exact compare_eq_ok_iff_of_measure?.mpr ⟨k, y, x, hy, hx, Std.OrientedCmp.eq_swap⟩

theorem compare_eq_iff_equals
    (compared : a.compare b = .ok o) :
    o = .eq ↔ a.equals b = true := by
  obtain ⟨k, x, y, hx, hy, rfl⟩ := compare_eq_ok_iff_of_measure?.mp compared
  rw [equals_iff_of_measure? hx hy]
  exact Std.LawfulEqOrd.compare_eq_iff_eq

/-- A value belongs to one class only. -/
theorem measure?_unique
    {l : OrderClass} {x : k.Scale} {y : l.Scale}
    (hx : v.measure? k = some x)
    (hy : v.measure? l = some y) :
    k = l :=
  Option.some.inj <| (orderClass?_eq_some_iff.mpr ⟨x, hx⟩).symm.trans
    (orderClass?_eq_some_iff.mpr ⟨y, hy⟩)

theorem compare_trans
    {p : Ordering}
    (hab : a.compare b = .ok o)
    (below : o.isLE = true)
    (hbc : b.compare c = .ok p)
    (below' : p.isLE = true) :
    ∃ q, a.compare c = .ok q ∧ q.isLE = true := by
  obtain ⟨k, x, y, hx, hy, rfl⟩ := compare_eq_ok_iff_of_measure?.mp hab
  obtain ⟨l, y', z, hy', hz, rfl⟩ := compare_eq_ok_iff_of_measure?.mp hbc
  obtain rfl := measure?_unique hy hy'
  obtain rfl := Option.some.inj (hy.symm.trans hy')
  exact ⟨_, compare_eq_ok_iff_of_measure?.mpr ⟨k, x, z, hx, hz, rfl⟩,
    Std.TransCmp.isLE_trans below below'⟩

end Value

namespace Eval

/-- The six comparisons of two values come from one order, so that exactly one of `<`, `==` and `>`
holds. -/
def DecidedBy (o : Ordering) (a b : Value) : Prop :=
  applyBinary .lt a b = .ok (.bool (o == .lt)) ∧
    applyBinary .le a b = .ok (.bool (o != .gt)) ∧
    applyBinary .gt a b = .ok (.bool (o == .gt)) ∧
    applyBinary .ge a b = .ok (.bool (o != .lt)) ∧
    applyBinary .eq a b = .ok (.bool (o == .eq)) ∧
    applyBinary .ne a b = .ok (.bool (o != .eq))

theorem decidedBy_of_compare
    {a b : Value} {o : Ordering}
    (compared : a.compare b = .ok o) :
    DecidedBy o a b := by
  have equal : a.equals b = (o == .eq) := by
    rw [Bool.eq_iff_iff, beq_iff_eq, Value.compare_eq_iff_equals compared]
  have ordered : ∀ holds : Ordering → Bool, Eval.compared a b holds = .ok (.bool (holds o)) := by
    intro holds
    rw [Eval.compared, compared]
    rfl
  refine ⟨ordered _, ordered _, ordered _, ordered _, ?_, ?_⟩
  · rw [applyBinary, equal]
  · rw [applyBinary, equal]
    rfl

end Eval

namespace Value

variable {a b c : Value} {o p : Ordering}

end Value
end ExprLang
