import ExprLang.Time.DurationText
import ExprLang.Value.Container
import ExprLang.Value.Describe

/-!
# Objects of the host

A host program hands its own objects to the language and gets them back.  `HostObject.toValue`
turns an object into a value, `Value.toHost` turns a value into the closest object.

Dictionaries of the host compare keys differently from maps: `true` and `1` are one key there, and
so are `1` and `1.0`.  Writing under such a key keeps the key that came first.
-/

namespace ExprLang

/-- The objects that a host program can hand over. -/
inductive HostObject where
  | none
  | bool (b : Bool)
  | int (n : Int)
  | float (f : Float)
  | text (s : String)
  | octets (data : List UInt8)
  | timestamp (t : Time.Timestamp)
  /-- A date and time without an offset; it is taken at offset zero. -/
  | localTime (t : Time.Timestamp)
  | date (d : Time.Date)
  | duration (d : Time.Duration)
  | pattern (source : String)
  | list (items : List HostObject)
  | tuple (items : List HostObject)
  | dict (entries : List (HostObject × HostObject))
  /-- An object of a type that the language has no value for. -/
  | opaqueObject (typeName : String)
  | value (v : Value)
deriving Inhabited

namespace HostObject

/-- The name that the host has for the type of a value. -/
def variantName : Value → String
  | .null => "Null"
  | .bool _ => "Bool"
  | .int _ => "Int"
  | .uint _ => "UInt"
  | .float _ => "Float"
  | .string _ => "String"
  | .bytes _ => "Bytes"
  | .list _ => "List"
  | .map _ => "Map"
  | .timestamp _ => "Timestamp"
  | .duration _ => "Duration"
  | .regex _ => "Regex"
  | .function _ => "FunctionRef"

/-- The name that the host has for the type of an object. -/
def typeName : HostObject → String
  | none => "NoneType"
  | bool _ => "bool"
  | int _ => "int"
  | float _ => "float"
  | text _ => "str"
  | octets _ => "bytes"
  | timestamp _ => "datetime"
  | localTime _ => "datetime"
  | date _ => "date"
  | duration _ => "timedelta"
  | pattern _ => "Pattern"
  | list _ => "list"
  | tuple _ => "tuple"
  | dict _ => "dict"
  | opaqueObject name => name
  | value v => variantName v

/-- An object as text: text stands for itself. -/
def shownText : HostObject → String
  | none => "None"
  | bool b => Value.describeBool b
  | int n => Number.intText n
  | float f => Number.floatText f
  | text s => s
  | octets data => Text.Quoted.octets data
  | timestamp t => t.date.text ++ " " ++ t.clock.text ++ Time.offsetText t.offset
  | localTime t => t.date.text ++ " " ++ t.clock.text
  | date d => d.text
  | duration d => d.clockText
  | pattern source => Value.describePattern source
  | value v => v.describe
  | o => "<" ++ o.typeName ++ ">"

/-- The number that an object is to the host: truth values count as zero and one. -/
def number? : HostObject → Option Number.Extended
  | bool b => some (.finite (if b then 1 else 0))
  | int n => some (.finite n)
  | float f => some (Number.extended f)
  | _ => Option.none

mutual

/-- Whether two objects are one key of a dictionary. -/
def same : HostObject → HostObject → Bool
  | none, none => true
  | text a, text b => a = b
  | octets a, octets b => a = b
  | timestamp a, timestamp b => a.instant = b.instant
  | localTime a, localTime b => a.wall = b.wall
  | date a, date b => a = b
  | duration a, duration b => a.micros = b.micros
  | pattern a, pattern b => a = b
  | tuple a, tuple b => sameItems a b
  | value a, value b => a.equals b
  | a, b =>
      match a.number?, b.number? with
      | some m, some n => m.same n
      | _, _ => false

/-- Whether two sequences have the same items, one by one. -/
def sameItems : List HostObject → List HostObject → Bool
  | [], [] => true
  | a :: as, b :: bs => same a b && sameItems as bs
  | _, _ => false

end

/-- Writes an entry into a dictionary. -/
def putEntry (entries : List (HostObject × HostObject)) (key item : HostObject) :
    List (HostObject × HostObject) :=
  Assoc.put same key item entries

/-- The dictionary of a list of entries, written one after another. -/
def ofEntries (entries : List (HostObject × HostObject)) : HostObject :=
  dict (Assoc.ofList same entries)

mutual

/-- The value of an object, if the language has one for it. -/
def toValue : HostObject → Outcome Value
  | none => .ok .null
  | bool b => .ok (.bool b)
  | int n => if InIntRange n then .ok (.int n) else .error (.overflow "int" [.number n])
  | float f => .ok (.float f)
  | text s => .ok (.string s)
  | octets data => .ok (.bytes data)
  | timestamp t => .ok (.timestamp t)
  | localTime t => .ok (.timestamp t.atOffsetZero)
  | duration d => .ok (.duration d)
  | pattern source => .ok (.regex source)
  | list items => do pure (.list (← toValues items))
  | tuple items => do pure (.list (← toValues items))
  | dict entries => do pure (.map (← toEntries [] entries))
  | date _ => .error (.typeMismatch "a convertible value" "date" Option.none)
  | opaqueObject name => .error (.typeMismatch "a convertible value" name Option.none)
  | value v => .ok v

/-- The values of a sequence of objects. -/
def toValues : List HostObject → Outcome (List Value)
  | [] => .ok []
  | a :: rest => do
      let v ← toValue a
      let vs ← toValues rest
      pure (v :: vs)

/-- Writes the entries of a dictionary into a map, one after another. -/
def toEntries (entries : List (Key × Value)) :
    List (HostObject × HostObject) → Outcome (List (Key × Value))
  | [] => .ok entries
  | (k, a) :: rest => do
      let k ← toValue k
      let v ← toValue a
      let key ← k.asKey
      toEntries (Value.putEntry entries key v) rest

end

end HostObject

/-- The object of a key. -/
def Key.toHost : Key → HostObject
  | .int n => .int n
  | .uint n => .int n
  | .bool b => .bool b
  | .string s => .text s

namespace Value

mutual

/-- The closest object of the host; a function reference stays what it is. -/
def toHost : Value → HostObject
  | null => .none
  | bool b => .bool b
  | int n => .int n
  | uint n => .int n
  | float f => .float f
  | string s => .text s
  | bytes data => .octets data
  | list items => .list (toHostItems items)
  | map entries => .dict (toHostEntries [] entries)
  | timestamp t => .timestamp t
  | duration d => .duration d
  | regex pattern => .pattern pattern
  | function name => .value (function name)

/-- The objects of a list of values. -/
def toHostItems : List Value → List HostObject
  | [] => []
  | v :: rest => v.toHost :: toHostItems rest

/-- Writes the entries of a map into a dictionary, one after another. -/
def toHostEntries (entries : List (HostObject × HostObject)) :
    List (Key × Value) → List (HostObject × HostObject)
  | [] => entries
  | (k, v) :: rest => toHostEntries (HostObject.putEntry entries k.toHost v.toHost) rest

end

/-- Whether a value can be a key of a dictionary: neither a map nor a list that holds one. -/
def isHashable : Value → Bool
  | map _ => false
  | list items => hashableItems items
  | _ => true
where
  /-- Whether all values of a list can be keys of a dictionary. -/
  hashableItems : List Value → Bool
    | [] => true
    | v :: rest => isHashable v && hashableItems rest

end Value
end ExprLang
