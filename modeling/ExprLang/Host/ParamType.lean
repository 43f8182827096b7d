import ExprLang.Host.Object

/-!
# Types of parameters

A host function declares for each parameter which values it takes and in what form it wants to
have them.  `ParamType.convert?` hands a value over in that form, or refuses it.

Types that take the same values in the same form can still be different declarations: a sequence is
no list, and a list whose items are not declared is no list of any values.  A union keeps them apart,
and `ParamType.same` tells which declarations are one.  The order of a union does not count there.
-/

namespace ExprLang

/-- What a parameter takes. -/
inductive ParamType where
  /-- Any value, as the closest object of the host. -/
  | any
  /-- The same where nothing is declared. -/
  | undeclared
  | bool
  /-- A signed or unsigned integer, as an integer of the host. -/
  | int
  | float
  | text
  | octets
  | none
  | timestamp
  | duration
  | pattern
  | list (item : ParamType)
  /-- What a list takes, declared as a sequence. -/
  | sequence (item : ParamType)
  | tuple (item : ParamType)
  | dict (key item : ParamType)
  /-- What a dictionary takes, declared as a mapping. -/
  | mapping (key item : ParamType)
  /-- Any value, as it is. -/
  | anyValue
  /-- Values of the type with this name, as they are. -/
  | variant (typeName : String)
  /-- What one of the members takes; the first that takes a value decides its form. -/
  | union (members : List ParamType)
  /-- A type that parameters cannot have, as it was written. -/
  | unsupported (shown : String)

namespace ParamType

/-! ### Which declarations are one -/

mutual

/-- Whether two types are declared alike.  Unions are if they have the same members. -/
def same : ParamType → ParamType → Bool
  | any, any => true
  | undeclared, undeclared => true
  | bool, bool => true
  | int, int => true
  | float, float => true
  | text, text => true
  | octets, octets => true
  | none, none => true
  | timestamp, timestamp => true
  | duration, duration => true
  | pattern, pattern => true
  | list a, list b => same a b
  | sequence a, sequence b => same a b
  | tuple a, tuple b => same a b
  | dict k a, dict l b => same k l && same a b
  | mapping k a, mapping l b => same k l && same a b
  | anyValue, anyValue => true
  | variant a, variant b => a == b
  | union xs, union ys => xs.length == ys.length && allAmong xs ys
  | unsupported a, unsupported b => a == b
  | _, _ => false

/-- Whether each of some types is declared among others. -/
def allAmong : List ParamType → List ParamType → Bool
  | [], _ => true
  | t :: rest, ys => ys.any (same t) && allAmong rest ys

end

instance : BEq ParamType := ⟨same⟩

/-! ### Names -/

mutual

/-- The name of a type inside messages. -/
def expected : ParamType → String
  | any => "any"
  | undeclared => "any"
  | bool => "bool"
  | int => "int"
  | float => "float"
  | text => "string"
  | octets => "bytes"
  | none => "null"
  | timestamp => "timestamp"
  | duration => "duration"
  | pattern => "regex"
  | list _ => "list"
  | sequence _ => "list"
  | tuple _ => "list"
  | dict _ _ => "map"
  | mapping _ _ => "map"
  | anyValue => "value"
  | variant name => name
  | union members => " or ".intercalate (expectedAll members)
  | unsupported shown => shown

/-- The names of several types. -/
def expectedAll : List ParamType → List String
  | [] => []
  | t :: rest => expected t :: expectedAll rest

end

/-! ### Types that parameters cannot have -/

mutual

/-- The first part of a type that parameters cannot have. -/
def unsupported? : ParamType → Option String
  | unsupported shown => some shown
  | list item => unsupported? item
  | sequence item => unsupported? item
  | tuple item => unsupported? item
  | dict key item => (unsupported? key).orElse fun _ => unsupported? item
  | mapping key item => (unsupported? key).orElse fun _ => unsupported? item
  | union members => unsupportedAmong? members
  | _ => Option.none

/-- The first part of several types that parameters cannot have. -/
def unsupportedAmong? : List ParamType → Option String
  | [] => Option.none
  | t :: rest => (unsupported? t).orElse fun _ => unsupportedAmong? rest

end

/-! ### Conversion -/

/-- Converts every item of a list. -/
def convertItems? (convert? : Value → Option HostObject) :
    List Value → Option (List HostObject)
  | [] => some []
  | v :: rest => do
      let a ← convert? v
      let others ← convertItems? convert? rest
      some (a :: others)

/-- Converts every entry of a map. -/
def convertEntries? (convertKey? convert? : Value → Option HostObject)
    (entries : List (HostObject × HostObject)) :
    List (Key × Value) → Option (List (HostObject × HostObject))
  | [] => some entries
  | (k, v) :: rest => do
      let key ← convertKey? k.toValue
      let item ← convert? v
      convertEntries? convertKey? convert? (HostObject.putEntry entries key item) rest

mutual

/-- A value in the form that the parameter asks for, if it takes the value. -/
def convert? : ParamType → Value → Option HostObject
  | any, v => some v.toHost
  | undeclared, v => some v.toHost
  | bool, .bool b => some (.bool b)
  | int, .int n => some (.int n)
  | int, .uint n => some (.int n)
  | float, .float f => some (.float f)
  | text, .string s => some (.text s)
  | octets, .bytes data => some (.octets data)
  | none, .null => some .none
  | timestamp, .timestamp t => some (.timestamp t)
  | duration, .duration d => some (.duration d)
  | pattern, .regex source => some (.pattern source)
  | list item, .list vs => (convertItems? (convert? item) vs).map .list
  | sequence item, .list vs => (convertItems? (convert? item) vs).map .list
  | tuple item, .list vs => (convertItems? (convert? item) vs).map .tuple
  | dict key item, .map entries =>
      (convertEntries? (convert? key) (convert? item) [] entries).map .dict
  | mapping key item, .map entries =>
      (convertEntries? (convert? key) (convert? item) [] entries).map .dict
  | anyValue, v => some (.value v)
  | variant name, v => if v.typeName = name then some (.value v) else Option.none
  | union members, v => convertAmong? members v
  | _, _ => Option.none

/-- A value in the form of the first type that takes it. -/
def convertAmong? : List ParamType → Value → Option HostObject
  | [], _ => Option.none
  | t :: rest, v => (convert? t v).orElse fun _ => convertAmong? rest v

end

/-! ### Unions -/

/-- The members of a type: those of a union, or the type alone. -/
def members : ParamType → List ParamType
  | union ts => ts
  | t => [t]

/-- The union of several types: unions among them are merged into it, no type is declared in it
twice, and a union of one type is that type. -/
def unionOf (types : List ParamType) : ParamType :=
  match (types.flatMap members).eraseDups with
  | [t] => t
  | ts => union ts

end ParamType
end ExprLang
