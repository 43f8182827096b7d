import ExprLang.Number.FloatText
import ExprLang.Regex.Parser
import ExprLang.Text.Quoted
import ExprLang.Time.TimestampText
import ExprLang.Value.Basic

/-!
# Values inside messages

Messages show a value as the name of its variant with its payload, as in `Int(value=1)`.
-/

namespace ExprLang
namespace Value

/-- A truth value inside a message. -/
def describeBool (b : Bool) : String :=
  if b then "True" else "False"

/-- An offset from UTC inside a message. -/
def describeOffset (offset : Int) : String :=
  if offset = 0 then "datetime.timezone.utc"
  else "datetime.timezone(" ++ Time.describeLength offset ++ ")"

/-- A timestamp inside a message: seconds are left out when they and the microseconds are zero. -/
def describeTimestamp (t : Time.Timestamp) : String :=
  let d := t.date
  let c := t.clock
  let numbers := [d.year, d.month, d.day, c.hour, c.minute] ++
    (if c.second = 0 ∧ c.micro = 0 then [] else [c.second]) ++
    (if c.micro = 0 then [] else [c.micro])
  "datetime.datetime(" ++ ", ".intercalate (numbers.map Number.natText) ++
    ", tzinfo=" ++ describeOffset t.offset ++ ")"

/-- A sequence in parentheses; one item alone is followed by a comma. -/
def describeTuple : List String → String
  | [item] => "(" ++ item ++ ",)"
  | items => "(" ++ ", ".intercalate items ++ ")"

/-- A sequence in brackets. -/
def describeList (items : List String) : String :=
  "[" ++ ", ".intercalate items ++ "]"

/-- A key inside a message. -/
def describeKey : Key → String
  | .int n => "Int(value=" ++ Number.intText n ++ ")"
  | .uint n => "UInt(value=" ++ Number.natText n ++ ")"
  | .bool b => "Bool(value=" ++ describeBool b ++ ")"
  | .string s => "String(value=" ++ Text.Quoted.text s ++ ")"

/-- The names of the flags that hold for a whole regular expression.  That all scripts count is
not said. -/
def flagNames (f : Regex.Flags) : List String :=
  [(f.template, "re.TEMPLATE"), (f.ignoreCase, "re.IGNORECASE"), (f.multiline, "re.MULTILINE"),
    (f.dotAll, "re.DOTALL"), (f.verbose, "re.VERBOSE"), (f.ascii, "re.ASCII")].filterMap
    fun (isOn, name) => if isOn then some name else none

/-- A regular expression inside a message: its pattern quoted, cut after 200 characters, and its
flags. -/
def describePattern (pattern : String) : String :=
  let quoted := String.ofList ((Text.Quoted.text pattern).toList.take 200)
  let flags := match Regex.parsePattern pattern.toList with
    | .ok p => flagNames p.flags
    | .error _ => []
  "re.compile(" ++ quoted ++ (if flags.isEmpty then "" else ", " ++ "|".intercalate flags) ++ ")"

mutual

/-- A value inside a message. -/
def describe : Value → String
  | null => "Null()"
  | bool b => describeKey (.bool b)
  | int n => describeKey (.int n)
  | uint n => describeKey (.uint n)
  | float f => "Float(value=" ++ Number.floatText f ++ ")"
  | string s => describeKey (.string s)
  | bytes data => "Bytes(value=" ++ Text.Quoted.octets data ++ ")"
  | list items => "List(items=" ++ describeTuple (describeItems items) ++ ")"
  | map entries => "Map(entries=\x7b" ++ ", ".intercalate (describeEntries entries) ++ "\x7d)"
  | timestamp t => "Timestamp(value=" ++ describeTimestamp t ++ ")"
  | duration d => "Duration(value=" ++ Time.describeLength d.micros ++ ")"
  | regex pattern => "Regex(value=" ++ describePattern pattern ++ ")"
  | function name => "FunctionRef(name=" ++ Text.Quoted.text name ++ ")"

/-- The items of a list inside a message. -/
def describeItems : List Value → List String
  | [] => []
  | v :: rest => v.describe :: describeItems rest

/-- The entries of a map inside a message. -/
def describeEntries : List (Key × Value) → List String
  | [] => []
  | (k, v) :: rest => (describeKey k ++ ": " ++ v.describe) :: describeEntries rest

end

end Value
end ExprLang
