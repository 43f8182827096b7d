import ExprLang.Assoc
import ExprLang.Number.Exact
import ExprLang.Time.Timestamp

/-!
# Values

Everything that an expression can produce is a `Value`.  Integers are signed or unsigned, each
within 64 bits; maps keep their entries in insertion order and are keyed by integers, truth values
and strings.

`Value.WellFormed` says that integers are in range and that no two keys of a map are the same.
-/

namespace ExprLang

/-- The keys that a map may have. -/
inductive Key where
  | int (n : Int)
  | uint (n : Nat)
  | bool (b : Bool)
  | string (s : String)
deriving DecidableEq

/-- The number of a signed or unsigned key. -/
def Key.number? : Key → Option Int
  | .int n => some n
  | .uint n => some n
  | _ => none

/-- Whether two keys address the same entry: signed and unsigned integers by their number, truth
values and strings only among themselves. -/
def Key.same (a b : Key) : Bool :=
  match a.number?, b.number? with
  | some m, some n => m = n
  | _, _ => a = b

/-- The values of the language. -/
inductive Value where
  | null
  | bool (b : Bool)
  | int (n : Int)
  | uint (n : Nat)
  | float (f : Float)
  | string (s : String)
  | bytes (octets : List UInt8)
  | list (items : List Value)
  | map (entries : List (Key × Value))
  | timestamp (t : Time.Timestamp)
  | duration (d : Time.Duration)
  | regex (pattern : String)
  | function (name : String)
deriving Inhabited

/-- A key as a value. -/
def Key.toValue : Key → Value
  | .int n => .int n
  | .uint n => .uint n
  | .bool b => .bool b
  | .string s => .string s

/-- The smallest signed integer, two to the 63rd below zero. -/
def minInt : Int := -9223372036854775808

/-- The largest signed integer, one less than two to the 63rd. -/
def maxInt : Int := 9223372036854775807

/-- The largest unsigned integer, one less than two to the 64th. -/
def maxUInt : Nat := 18446744073709551615

/-- Whether a number is in the range of signed integers. -/
def InIntRange (n : Int) : Prop :=
  minInt ≤ n ∧ n ≤ maxInt

instance (n : Int) : Decidable (InIntRange n) :=
  inferInstanceAs (Decidable (_ ∧ _))

/-- Whether a number is in the range of unsigned integers. -/
def InUIntRange (n : Int) : Prop :=
  0 ≤ n ∧ n ≤ maxUInt

instance (n : Int) : Decidable (InUIntRange n) :=
  inferInstanceAs (Decidable (_ ∧ _))

namespace Value

/-- The name of a value's type. -/
def typeName : Value → String
  | null => "null"
  | bool _ => "bool"
  | int _ => "int"
  | uint _ => "uint"
  | float _ => "float"
  | string _ => "string"
  | bytes _ => "bytes"
  | list _ => "list"
  | map _ => "map"
  | timestamp _ => "timestamp"
  | duration _ => "duration"
  | regex _ => "regex"
  | function _ => "function"

/-- The key that a value is, if its type is a key type. -/
def toKey? : Value → Option Key
  | int n => some (.int n)
  | uint n => some (.uint n)
  | bool b => some (.bool b)
  | string s => some (.string s)
  | _ => none

theorem toKey?_toValue (k : Key) : k.toValue.toKey? = some k := by
  cases k <;> rfl

theorem toKey?_eq_some_iff {v : Value} {k : Key} :
    v.toKey? = some k ↔ v = k.toValue := by
  constructor
  · intro h
    cases v <;> simp [toKey?] at h <;> subst h <;> rfl
  · rintro rfl
    exact toKey?_toValue k

/-- Whether the integers of a key are in range. -/
def keyInRange : Key → Prop
  | .int n => InIntRange n
  | .uint n => n ≤ maxUInt
  | _ => True

mutual

/-- Integers are in range and no two keys of a map are the same, at any depth. -/
def WellFormed : Value → Prop
  | int n => InIntRange n
  | uint n => n ≤ maxUInt
  | list items => WellFormedItems items
  | map entries => Assoc.Distinct Key.same entries ∧ WellFormedEntries entries
  | _ => True

/-- Every value of a list is well-formed. -/
def WellFormedItems : List Value → Prop
  | [] => True
  | v :: rest => v.WellFormed ∧ WellFormedItems rest

/-- Every key is in range and every value of a map is well-formed. -/
def WellFormedEntries : List (Key × Value) → Prop
  | [] => True
  | (k, v) :: rest => keyInRange k ∧ v.WellFormed ∧ WellFormedEntries rest

end

end Value
end ExprLang
