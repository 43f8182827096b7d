import ExprLang.Host.Function
import ExprLang.Regex.Parser
import ExprLang.Regex.Search

/-!
# Standard functions on containers and strings

Size, containment, the beginning and end of strings, regular expressions, and the extremes of a
list.
-/

namespace ExprLang
namespace Stdlib

/-- The body of a standard function: what it does with its converted arguments. -/
abbrev Body := CallInfo → List HostObject → HostProgram

/-- Whether a sequence stands somewhere inside another. -/
def occursIn {α : Type} [BEq α] (part : List α) : List α → Bool
  | [] => part.isEmpty
  | a :: rest => part.isPrefixOf (a :: rest) || occursIn part rest

/-- The size of a string, of octets, of a list or of a map. -/
def measure (v : Value) : HostProgram :=
  match v.size with
  | .ok n => .finish (.int n)
  | .error e => .fail e

/-- Containment: a substring, a run of octets, an item of a list, a key of a map. -/
def containment (container item : Value) : Outcome Bool :=
  match container, item with
  | .list items, v => .ok (items.any (v.equals ·))
  | .map entries, v => do
      let key ← v.asKey
      pure (Value.lookup? key entries).isSome
  | .string s, .string part => .ok (occursIn part.toList s.toList)
  | .bytes data, .bytes part => .ok (occursIn part data)
  | _, _ => .ok false

/-- Whether a string starts with another. -/
def startsWith (s start : String) : Bool :=
  start.toList.isPrefixOf s.toList

/-- Whether a string ends with another. -/
def endsWith (s ending : String) : Bool :=
  ending.toList.reverse.isPrefixOf s.toList.reverse

/-- The class of the exception for a fault of a pattern. -/
def faultClass : Regex.Fault → String
  | .repeatTooLarge => "OverflowError"
  | .tooManyDigits _ => "ValueError"
  | .scriptFlagsOfPattern => "ValueError"
  | _ => "error"

/-- The exception for a pattern that cannot be read. -/
def patternException (pattern : String) (e : Regex.PatternError) : HostException :=
  ⟨faultClass e.fault, some (e.message pattern.toList)⟩

/-- Whether a pattern matches somewhere in a string. -/
def matchesPattern (s pattern : String) : HostProgram :=
  match Regex.parsePattern pattern.toList with
  | .ok regex => .finish (.bool (regex.matchesIn s.toList))
  | .error e => .raise (patternException pattern e)

/-- The regular expression of a pattern. -/
def makeRegex (pattern : String) : HostProgram :=
  match Regex.parsePattern pattern.toList with
  | .ok _ => .finish (.pattern pattern)
  | .error e => .raise (patternException pattern e)

/-- Goes through values and keeps the best so far: `keeps` says for which order of the best and the
next value the best stays. -/
def bestOf (keeps : Ordering → Bool) : Value → List Value → Outcome Value
  | best, [] => .ok best
  | best, v :: rest => do
      let order ← best.compare v
      bestOf keeps (if keeps order then best else v) rest

/-- The extreme of some values, or of the list that is the only one; null if there are none. -/
def extreme (keeps : Ordering → Bool) (args : List Value) : Outcome Value :=
  match args with
  | [.list []] => .ok .null
  | [.list (v :: rest)] => bestOf keeps v rest
  | [] => .ok .null
  | v :: rest => bestOf keeps v rest

/-- The greatest of some values; of equal ones the last. -/
def greatest (args : List Value) : Outcome Value :=
  extreme (· == .gt) args

/-- The least of some values; of equal ones the last. -/
def least (args : List Value) : Outcome Value :=
  extreme (· == .lt) args

end Stdlib
end ExprLang
