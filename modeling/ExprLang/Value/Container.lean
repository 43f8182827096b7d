import ExprLang.Value.Arithmetic
import ExprLang.Value.Order

/-!
# Comparison, containers and maps

The operations of the language on strings, octets, lists and maps: size, membership, access by
index or field, and the tests whether such an access would succeed.
-/

namespace ExprLang
namespace Value

/-- The order of two values, or the report that they have none. -/
def compare (a b : Value) : Outcome Ordering :=
  match order? a b with
  | some order => .ok order
  | none => .error (.valuesNotComparable a b)

/-- The key that a value is, or the report that its type is no key type. -/
def asKey (v : Value) : Outcome Key :=
  match v.toKey? with
  | some key => .ok key
  | none => .error (.unsupportedKeyType v.typeName)

/-- Writes an entry into a map. -/
def putEntry (entries : List (Key × Value)) (key : Key) (value : Value) : List (Key × Value) :=
  Assoc.put Key.same key value entries

/-- Writes pairs of values into a map, one after another. -/
def putPairs (entries : List (Key × Value)) : List (Value × Value) → Outcome (List (Key × Value))
  | [] => .ok entries
  | (k, v) :: rest => do
      let key ← k.asKey
      putPairs (putEntry entries key v) rest

/-- The map of a list of pairs. -/
def makeMap (pairs : List (Value × Value)) : Outcome Value :=
  (putPairs [] pairs).map map

/-- The number of code points, octets, items or entries. -/
def size : Value → Outcome Nat
  | string s => .ok s.length
  | bytes data => .ok data.length
  | list items => .ok items.length
  | map entries => .ok entries.length
  | v => .error (unsupported "size" [v])

/-- Membership in a list, or presence of a key in a map. -/
def contains (container item : Value) : Outcome Bool :=
  match container with
  | list items => .ok (items.any (item.equals ·))
  | map entries =>
      match item.toKey? with
      | some key => .ok (lookup? key entries).isSome
      | none => .ok false
  | _ => .error (unsupported "in" [item, container])

/-- The number of an integer value. -/
def integer? : Value → Option Int
  | int n => some n
  | uint n => some n
  | _ => none

/-- The item of a sequence at a position. -/
def itemAt {α : Type} (items : List α) (position : Int) : Outcome α :=
  if position < 0 then
    .error (.indexOutOfRange position items.length)
  else
    match items[position.toNat]? with
    | some item => .ok item
    | none => .error (.indexOutOfRange position items.length)

/-- The item of a list, the character of a string, or the value under a key of a map. -/
def index (container key : Value) : Outcome Value :=
  match container with
  | list items =>
      match key.integer? with
      | some position => itemAt items position
      | none => .error (unsupported "[]" [container, key])
  | string s =>
      match key.integer? with
      | some position => (itemAt s.toList position).map fun c => string (String.singleton c)
      | none => .error (unsupported "[]" [container, key])
  | map entries => do
      let key ← key.asKey
      match lookup? key entries with
      | some v => .ok v
      | none => .error (.noSuchKey key)
  | _ => .error (unsupported "[]" [container, key])

/-- The value of a field, that is, under a string key of a map. -/
def member (target : Value) (field : String) : Outcome Value :=
  match target with
  | map entries =>
      match lookup? (.string field) entries with
      | some v => .ok v
      | none => .error (.noSuchField field)
  | _ => .error (unsupported ("." ++ field) [target])

/-- Whether a value has a field. -/
def hasField (target : Value) (field : String) : Bool :=
  match target with
  | map entries => (lookup? (.string field) entries).isSome
  | _ => false

/-- Whether a position lies within a sequence of the given length. -/
def inBounds (key : Value) (length : Nat) : Bool :=
  match key.integer? with
  | some position => 0 ≤ position && position < length
  | none => false

/-- Whether a value can be indexed by a key. -/
def hasIndex (target key : Value) : Bool :=
  match target with
  | list items => key.inBounds items.length
  | string s => key.inBounds s.length
  | map entries =>
      match key.toKey? with
      | some key => (lookup? key entries).isSome
      | none => false
  | _ => false

end Value
end ExprLang
