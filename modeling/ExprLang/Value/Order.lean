import ExprLang.Value.Basic

/-!
# Equality and order of values

`Value.equals` is the equality of the language: total, false across types, except that all numbers
are compared as the exact numbers that they denote.  `Value.order?` compares two values of one
class: numbers, strings, octets, timestamps and durations are such classes, and a float that is
not a number belongs to none.
-/

namespace ExprLang

namespace Number

/-- Whether two numbers are equal; what is not a number equals nothing. -/
def Extended.same : Extended → Extended → Bool
  | .finite a, .finite b => a = b
  | .infinite a, .infinite b => a = b
  | _, _ => false

/-- The order of two numbers, unless one of them is not a number. -/
def Extended.order? : Extended → Extended → Option Ordering
  | .undefined, _ => none
  | _, .undefined => none
  | .finite a, .finite b => some (compareOfLessAndEq a b)
  | .infinite true, .infinite true => some .eq
  | .infinite false, .infinite false => some .eq
  | .infinite true, _ => some .lt
  | _, .infinite true => some .gt
  | .infinite false, _ => some .gt
  | _, .infinite false => some .lt

end Number

namespace Value

/-- The exact number that a numeric value denotes. -/
def number? : Value → Option Number.Extended
  | int n => some (.finite n)
  | uint n => some (.finite n)
  | float f => some (Number.extended f)
  | _ => none

/-- The value under a key of a map. -/
def lookup? (key : Key) (entries : List (Key × Value)) : Option Value :=
  Assoc.find? Key.same key entries

mutual

/-- The equality of the language. -/
def equals : Value → Value → Bool
  | null, null => true
  | bool a, bool b => a = b
  | string a, string b => a = b
  | bytes a, bytes b => a = b
  | list a, list b => equalItems a b
  | map a, map b => a.length = b.length && equalEntries a b
  | timestamp a, timestamp b => a.instant = b.instant
  | duration a, duration b => a.micros = b.micros
  | regex a, regex b => a = b
  | function a, function b => a = b
  | a, b =>
      match a.number?, b.number? with
      | some m, some n => m.same n
      | _, _ => false

/-- Whether two lists have equal items, one by one. -/
def equalItems : List Value → List Value → Bool
  | [], [] => true
  | a :: as, b :: bs => equals a b && equalItems as bs
  | _, _ => false

/-- Whether every entry of the first map has an equal value under its key in the second. -/
def equalEntries : List (Key × Value) → List (Key × Value) → Bool
  | [], _ => true
  | (k, v) :: rest, other =>
      match lookup? k other with
      | some w => equals v w && equalEntries rest other
      | none => false

end

/-- The order of two values of one class. -/
def order? : Value → Value → Option Ordering
  | string a, string b => some (compare a.toList b.toList)
  | bytes a, bytes b => some (compare a b)
  | timestamp a, timestamp b => some (compare a.instant b.instant)
  | duration a, duration b => some (compare a.micros b.micros)
  | a, b =>
      match a.number?, b.number? with
      | some m, some n => m.order? n
      | _, _ => none

/-- The representatives of a list of values under `equals`: of equal values the first is kept. -/
def distinct (values : List Value) : List Value :=
  (values.foldl (fun kept v => if kept.any (·.equals v) then kept else v :: kept) []).reverse

end Value
end ExprLang
