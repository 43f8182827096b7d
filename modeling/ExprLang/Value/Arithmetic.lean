import ExprLang.RuntimeError

/-!
# Arithmetic

Signed and unsigned integers are computed exactly and reported when the result is out of range;
they do not mix with each other, but each mixes with floats.  Division goes towards zero.  Strings,
octets and lists are concatenated by `add`, and time arithmetic is exact or reported.
-/

namespace ExprLang
namespace Value

/-- The operator is not defined on values of these types. -/
def unsupported (op : String) (operands : List Value) : RuntimeError :=
  .unsupportedOperation op (operands.map typeName)

/-- A signed result, if it is in range. -/
def intResult (op : String) (result : Int) (operands : List Int) : Outcome Value :=
  if InIntRange result then .ok (int result)
  else .error (.overflow op (operands.map .number))

/-- An unsigned result, if it is in range. -/
def uintResult (op : String) (result : Int) (operands : List Int) : Outcome Value :=
  if InUIntRange result then .ok (uint result.toNat)
  else .error (.overflow op (operands.map .number))

/-- A timestamp, if there is one. -/
def timestampResult (op : String) (result : Option Time.Timestamp) (operands : List Operand) :
    Outcome Value :=
  match result with
  | some t => .ok (timestamp t)
  | none => .error (.overflow op operands)

/-- A duration, if there is one. -/
def durationResult (op : String) (result : Option Time.Duration) (operands : List Operand) :
    Outcome Value :=
  match result with
  | some d => .ok (duration d)
  | none => .error (.overflow op operands)

/-- The sum of two values, or their concatenation. -/
def add : Value → Value → Outcome Value
  | int a, int b => intResult "+" (a + b) [a, b]
  | uint a, uint b => uintResult "+" (a + b) [a, b]
  | float a, float b => .ok (float (a + b))
  | int a, float b => .ok (float (Float.ofInt a + b))
  | uint a, float b => .ok (float (Float.ofNat a + b))
  | float a, int b => .ok (float (a + Float.ofInt b))
  | float a, uint b => .ok (float (a + Float.ofNat b))
  | string a, string b => .ok (string (a ++ b))
  | bytes a, bytes b => .ok (bytes (a ++ b))
  | list a, list b => .ok (list (a ++ b))
  | timestamp a, duration b => timestampResult "+" (a.add? b) [.moment a, .length b]
  | duration a, timestamp b => timestampResult "+" (b.add? a) [.length a, .moment b]
  | duration a, duration b => durationResult "+" (a.add? b) [.length a, .length b]
  | a, b => .error (unsupported "+" [a, b])

/-- The difference of two values. -/
def sub : Value → Value → Outcome Value
  | int a, int b => intResult "-" (a - b) [a, b]
  | uint a, uint b => uintResult "-" (a - b) [a, b]
  | float a, float b => .ok (float (a - b))
  | int a, float b => .ok (float (Float.ofInt a - b))
  | uint a, float b => .ok (float (Float.ofNat a - b))
  | float a, int b => .ok (float (a - Float.ofInt b))
  | float a, uint b => .ok (float (a - Float.ofNat b))
  | timestamp a, timestamp b => durationResult "-" (a.since? b) [.moment a, .moment b]
  | timestamp a, duration b => timestampResult "-" (a.sub? b) [.moment a, .length b]
  | duration a, duration b => durationResult "-" (a.sub? b) [.length a, .length b]
  | a, b => .error (unsupported "-" [a, b])

/-- The product of two numbers. -/
def mul : Value → Value → Outcome Value
  | int a, int b => intResult "*" (a * b) [a, b]
  | uint a, uint b => uintResult "*" (a * b) [a, b]
  | float a, float b => .ok (float (a * b))
  | int a, float b => .ok (float (Float.ofInt a * b))
  | uint a, float b => .ok (float (Float.ofNat a * b))
  | float a, int b => .ok (float (a * Float.ofInt b))
  | float a, uint b => .ok (float (a * Float.ofNat b))
  | a, b => .error (unsupported "*" [a, b])

/-- The quotient of two numbers, integers being divided towards zero. -/
def div : Value → Value → Outcome Value
  | int a, int b =>
      if b = 0 then .error (.divisionByZero "/" a) else intResult "/" (a.tdiv b) [a, b]
  | uint a, uint b =>
      if b = 0 then .error (.divisionByZero "/" a) else .ok (uint (a / b))
  | float a, float b => .ok (float (a / b))
  | int a, float b => .ok (float (Float.ofInt a / b))
  | uint a, float b => .ok (float (Float.ofNat a / b))
  | float a, int b => .ok (float (a / Float.ofInt b))
  | float a, uint b => .ok (float (a / Float.ofNat b))
  | a, b => .error (unsupported "/" [a, b])

/-- The remainder of dividing integers towards zero; it fails where the quotient does. -/
def mod : Value → Value → Outcome Value
  | int a, int b =>
      if b = 0 then .error (.divisionByZero "%" a)
      else if InIntRange (a.tdiv b) then .ok (int (a.tmod b))
      else .error (.overflow "%" [.number a, .number b])
  | uint a, uint b =>
      if b = 0 then .error (.divisionByZero "%" a) else .ok (uint (a % b))
  | a, b => .error (unsupported "%" [a, b])

/-- The opposite of a signed number or a duration. -/
def neg : Value → Outcome Value
  | int a => intResult "-" (-a) [a]
  | float a => .ok (float (-a))
  | duration a => durationResult "-" a.neg? [.length a, .nothing]
  | a => .error (unsupported "-" [a])

/-- The negation of a truth value. -/
def logicalNot : Value → Outcome Value
  | bool b => .ok (bool !b)
  | a => .error (unsupported "!" [a])

/-- A value as a condition: only truth values may be one. -/
def asBool : Value → Outcome Bool
  | bool b => .ok b
  | a => .error (.typeMismatch "bool" a.typeName none)

end Value
end ExprLang
