import ExprLang.Stdlib.Containers
import ExprLang.Time.DurationText

/-!
# Conversions between types

The standard functions that are named for the type that they convert to.
-/

namespace ExprLang
namespace Stdlib

/-- An exception for a value that is not as it should be. -/
def valueException (text : String) : HostException :=
  ⟨"ValueError", some text⟩

/-- The text of a value, for those types that have one. -/
def textOf (v : Value) : Option String :=
  match v with
  | .string s => some s
  | .bool b => some (if b then "true" else "false")
  | .int n => some (Number.intText n)
  | .uint n => some (Number.natText n)
  | .float f => some (Number.floatText f)
  | .bytes data => some (String.ofList (Text.Utf8.decode data))
  | .timestamp t => some t.text
  | .duration d => some d.text
  | .regex pattern => some pattern
  | _ => none

/-- Converts a value to a string. -/
def toText (info : CallInfo) (v : Value) : HostProgram :=
  match textOf v with
  | some s => .finish (.text s)
  | none => .fail (info.error ("cannot convert " ++ v.typeName ++ " to string"))

/-- The octets of a string in UTF-8. -/
def octetsOf (s : String) : List UInt8 :=
  Text.Utf8.encode s.toList

/-- Converts a number or the text of one to a float. -/
def toFloat (info : CallInfo) (v : Value) : HostProgram :=
  match v with
  | .float f => .finish (.float f)
  | .int n => .finish (.float (Float.ofInt n))
  | .uint n => .finish (.float (Float.ofNat n))
  | .string s =>
      match Number.readFloat? s.toList with
      | some f => .finish (.float f)
      | none =>
          .fail (info.error
            ("string parse error: invalid float literal " ++ Text.Quoted.text s))
  | v => .fail (info.error ("cannot convert " ++ v.typeName))

/-- How the text of an integer ends: a number, no integer at all, or more digits than are read. -/
inductive IntegerText where
  | number (n : Int)
  | malformed
  | tooLong (digits : Nat)
deriving DecidableEq, Repr

/-- Reads ASCII digits with an optional sign. -/
def readIntegerText (cs : List Char) : IntegerText :=
  let (negative, digits) := Number.takeSign cs
  if digits.isEmpty || !digits.all Char.isDigit then .malformed
  else if digits.length > Number.integerDigitLimit then .tooLong digits.length
  else
    let n := Number.digitsValue digits
    .number (if negative then -(n : Int) else n)

/-- A whole number if it is in range. -/
def inRange (info : CallInfo) (low high : Int) (wrap : Int → Value) (n : Int) : HostProgram :=
  if low ≤ n ∧ n ≤ high then .finish (.value (wrap n))
  else .fail (info.error "integer overflow")

/-- Converts a number or the text of one to an integer within bounds; a float loses its fraction. -/
def toWhole (info : CallInfo) (low high : Int) (wrap : Int → Value) (v : Value) : HostProgram :=
  match v with
  | .int n => inRange info low high wrap n
  | .uint n => inRange info low high wrap n
  | .float f =>
      match Number.dyadic? f with
      | some d => inRange info low high wrap d.truncate
      | none =>
          .fail (info.error ("cannot convert " ++ Number.floatText f ++ " to an integer"))
  | .string s =>
      match readIntegerText s.toList with
      | .number n => inRange info low high wrap n
      | .malformed =>
          .fail (info.error
            ("string parse error: invalid integer literal " ++ Text.Quoted.text s))
      | .tooLong count => .raise (valueException (Number.tooManyDigitsMessage count))
  | v => .fail (info.error ("cannot convert " ++ v.typeName))

/-- Converts to a signed integer. -/
def toInt (info : CallInfo) (v : Value) : HostProgram :=
  toWhole info minInt maxInt .int v

/-- Converts to an unsigned integer. -/
def toUInt (info : CallInfo) (v : Value) : HostProgram :=
  toWhole info 0 maxUInt (fun n => .uint n.toNat) v

/-- Reads a duration. -/
def toDuration (s : String) : HostProgram :=
  match Time.Duration.read s with
  | .ok d => .finish (.duration d)
  | .error e => .raise (valueException e.message)

/-- Reads a timestamp. -/
def toTimestamp (s : String) : HostProgram :=
  match Time.Timestamp.read s with
  | .ok t => .finish (.timestamp t)
  | .error e => .raise (valueException e.message)

/-- The timestamp of a number of seconds since the epoch. -/
def ofEpochSeconds (n : Int) : HostProgram :=
  match Time.Timestamp.ofEpochMicros? (n * 1000000) with
  | some t => .finish (.timestamp t)
  | none => .fail (.overflow "timestamp" [.value (.int n)])

end Stdlib
end ExprLang
