import ExprLang.Context
import ExprLang.Stdlib.Conversions

/-!
# The standard library

The standard functions are ordinary host functions: their parameters have types, arguments are
checked and converted as for any other function, and results are converted back.  Each is listed
with the names under which it is registered.
-/

namespace ExprLang
namespace Stdlib

/-- A standard function: its parameters and what it does. -/
structure Entry where
  signature : Signature
  body : Body

/-- A signature of positional parameters. -/
def positional (params : List ParamType) : Signature :=
  ⟨params, 0, none, false, none⟩

/-- A signature of positional parameters of a function that asks for the call it serves. -/
def withCall (params : List ParamType) : Signature :=
  ⟨params, 0, none, true, none⟩

/-- Values of one of several types. -/
def oneOf (typeNames : List String) : ParamType :=
  .union (typeNames.map .variant)

/-- What a function does with arguments that its parameters do not allow. -/
def misuse : HostProgram :=
  .raise ⟨"TypeError", none⟩

/-- The values among some objects. -/
def valuesOf (args : List HostObject) : List Value :=
  args.filterMap fun
    | .value v => some v
    | _ => none

/-- A function of one value. -/
def onValue (type : ParamType) (f : Value → HostProgram) : Entry :=
  ⟨positional [type], fun _ args =>
    match args with
    | [.value v] => f v
    | _ => misuse⟩

/-- A conversion, which reports its own errors. -/
def conversion (type : ParamType) (f : CallInfo → Value → HostProgram) : Entry :=
  ⟨withCall [type], fun info args =>
    match args with
    | [.value v] => f info v
    | _ => misuse⟩

/-- A test of two strings. -/
def onTexts (f : String → String → Bool) : Entry :=
  ⟨positional [.text, .text], fun _ args =>
    match args with
    | [.text a, .text b] => .finish (.bool (f a b))
    | _ => misuse⟩

/-- A function of any number of values. -/
def onValues (f : List Value → Outcome Value) : Entry :=
  ⟨⟨[], 0, some .anyValue, false, none⟩, fun _ args => .ofOutcome (f (valuesOf args))⟩

/-- A field of a timestamp. -/
def onTimestamp (f : Time.Timestamp → Int) : Entry :=
  ⟨positional [.timestamp], fun _ args =>
    match args with
    | [.timestamp t] => .finish (.int (f t))
    | _ => misuse⟩

/-- `contains(container, item)`. -/
def containsEntry : Entry :=
  ⟨positional [.anyValue, .anyValue], fun _ args =>
    match args with
    | [.value container, .value item] =>
        .ofOutcome ((containment container item).map .bool)
    | _ => misuse⟩

/-- `matches(text, pattern)`; the pattern is a regular expression or the text of one. -/
def matchesEntry : Entry :=
  ⟨positional [.text, .union [.pattern, .text]], fun _ args =>
    match args with
    | [.text s, .pattern pattern] => matchesPattern s pattern
    | [.text s, .text pattern] => matchesPattern s pattern
    | _ => misuse⟩

/-- `Regex(pattern)`. -/
def regexEntry : Entry :=
  ⟨positional [.text], fun _ args =>
    match args with
    | [.text pattern] => makeRegex pattern
    | _ => misuse⟩

/-- The size of a container. -/
def sizeEntry : Entry :=
  onValue (oneOf ["string", "bytes", "list", "map"]) measure

/-- The octets of octets or of a string. -/
def bytesEntry : Entry :=
  onValue (oneOf ["bytes", "string"]) fun
    | .bytes data => .finish (.octets data)
    | .string s => .finish (.octets (octetsOf s))
    | _ => misuse

/-- A duration, or the duration that a text denotes. -/
def durationEntry : Entry :=
  onValue (oneOf ["duration", "string"]) fun
    | .duration d => .finish (.duration d)
    | .string s => toDuration s
    | _ => misuse

/-- A timestamp, the timestamp that a text denotes, or that of a number of seconds since the
epoch. -/
def timestampEntry : Entry :=
  onValue (oneOf ["timestamp", "string", "int"]) fun
    | .timestamp t => .finish (.timestamp t)
    | .string s => toTimestamp s
    | .int n => ofEpochSeconds n
    | _ => misuse

/-- The present instant. -/
def nowEntry (now : Time.Timestamp) : Entry :=
  ⟨positional [], fun _ _ => .finish (.timestamp now)⟩

/-- The year of a timestamp. -/
def yearEntry : Entry :=
  onTimestamp fun t => t.date.year

/-- The month of a timestamp, January being zero. -/
def monthEntry : Entry :=
  onTimestamp fun t => (t.date.month : Int) - 1

/-- The second of a timestamp. -/
def secondEntry : Entry :=
  onTimestamp fun t => t.clock.second

/-- The millisecond of a timestamp. -/
def milliEntry : Entry :=
  onTimestamp fun t => t.clock.micro / 1000

/-- Conversion to a string. -/
def textEntry : Entry :=
  conversion .anyValue toText

/-- Conversion to a float. -/
def floatEntry : Entry :=
  conversion (oneOf ["float", "int", "uint", "string"]) toFloat

/-- Conversion to a signed integer. -/
def intEntry : Entry :=
  conversion (oneOf ["int", "uint", "float", "string"]) toInt

/-- Conversion to an unsigned integer. -/
def uintEntry : Entry :=
  conversion (oneOf ["uint", "int", "float", "string"]) toUInt

/-- The standard functions by name; `now` is the instant that the clock shows. -/
def entries (now : Time.Timestamp) : List (String × Entry) := [
  ("size", sizeEntry),
  ("length", sizeEntry),
  ("contains", containsEntry),
  ("starts_with", onTexts startsWith),
  ("startsWith", onTexts startsWith),
  ("ends_with", onTexts endsWith),
  ("endsWith", onTexts endsWith),
  ("matches", matchesEntry),
  ("max", onValues greatest),
  ("min", onValues least),
  ("String", textEntry),
  ("string", textEntry),
  ("Bytes", bytesEntry),
  ("bytes", bytesEntry),
  ("Float", floatEntry),
  ("double", floatEntry),
  ("Int", intEntry),
  ("int", intEntry),
  ("UInt", uintEntry),
  ("uint", uintEntry),
  ("Regex", regexEntry),
  ("Duration", durationEntry),
  ("duration", durationEntry),
  ("Timestamp", timestampEntry),
  ("timestamp", timestampEntry),
  ("year", yearEntry),
  ("getFullYear", yearEntry),
  ("month", monthEntry),
  ("getMonth", monthEntry),
  ("getDayOfYear", onTimestamp fun t => t.dayOfYear),
  ("getDayOfMonth", onTimestamp fun t => (t.date.day : Int) - 1),
  ("getDate", onTimestamp fun t => t.date.day),
  ("getDayOfWeek", onTimestamp fun t => Time.weekday t.dayOf),
  ("getHours", onTimestamp fun t => t.clock.hour),
  ("getMinutes", onTimestamp fun t => t.clock.minute),
  ("seconds", secondEntry),
  ("getSeconds", secondEntry),
  ("milliseconds", milliEntry),
  ("getMilliseconds", milliEntry),
  ("unix", onTimestamp Time.Timestamp.unixSeconds),
  ("now", nowEntry now)]

/-- Registers an entry of the standard library in a scope. -/
def addEntry (scope : Scope) (name : String) (entry : Entry) : Scope :=
  match scope.addFunction name entry.signature entry.body with
  | .ok s => s
  | .error _ => scope

end Stdlib

/-- A scope with the standard functions. -/
def Scope.standard (now : Time.Timestamp) : Scope :=
  (Stdlib.entries now).foldl (fun scope (name, entry) => Stdlib.addEntry scope name entry) .empty

end ExprLang
