import ExprLang.Number.Decimal
import ExprLang.Text.Pieces
import ExprLang.Yaml.Moment

/-!
# What the parts of a YAML text stand for

A tag says what a scalar or a collection stands for.  It may be written in front of it;
`Tag.ofName` gives the tag of a written name.  A scalar without quotes and without a tag has the tag
that its spelling has: `tagOf` decides which.
-/

namespace ExprLang
namespace Yaml

/-- What a part of a text may stand for. -/
inductive Tag where
  | null
  | bool
  | int
  | float
  | octets
  | moment
  | text
  | list
  | map
  | set
  /-- A list of entries, written as maps of one entry each. -/
  | entries
  /-- A key whose content is merged into the map that it stands in. -/
  | merge
  /-- A key whose content stands for the map that it stands in. -/
  | content
  /-- A tag that stands for nothing that can be read. -/
  | unknown
deriving DecidableEq, Repr

namespace Tag

/-- What the full names of the tags begin with. -/
def nameStart : List Char := "tag:yaml.org,2002:".toList

/-- The tag of a full name. -/
def ofName (name : List Char) : Tag :=
  if nameStart.isPrefixOf name then
    match String.ofList (name.drop nameStart.length) with
    | "null" => null
    | "bool" => bool
    | "int" => int
    | "float" => float
    | "binary" => octets
    | "timestamp" => moment
    | "str" => text
    | "seq" => list
    | "map" => map
    | "set" => set
    | "omap" => entries
    | "pairs" => entries
    | "merge" => merge
    | "value" => content
    | _ => unknown
  else unknown

/-- Whether a tag is one of a collection. -/
def isCollection : Tag → Bool
  | list => true
  | map => true
  | set => true
  | entries => true
  | _ => false

end Tag

/-! ### Spellings -/

/-- Whether a text is not empty and every character of it is in a class. -/
def isRun (holds : Char → Bool) (cs : List Char) : Bool :=
  !cs.isEmpty && cs.all holds

/-- Whether a character is a digit or an underscore. -/
def isDigitOrBar (c : Char) : Bool :=
  c.isDigit || c == '_'

/-- A digit, then digits and underscores. -/
def isGroupedDigits : List Char → Bool
  | [] => false
  | c :: rest => c.isDigit && rest.all isDigitOrBar

/-- A number below sixty, of one digit or two. -/
def isSixtieth : List Char → Bool
  | [c] => c.isDigit
  | [a, b] => '0' ≤ a && a ≤ '5' && b.isDigit
  | _ => false

/-- Drops a leading sign. -/
def dropSign : List Char → List Char
  | '-' :: rest => rest
  | '+' :: rest => rest
  | cs => cs

/-- An unsigned integer: decimal, or binary, octal or hexadecimal after a zero, or in base sixty
with colons. -/
def isUnsignedInteger : List Char → Bool
  | ['0'] => true
  | '0' :: 'b' :: rest => isRun (fun c => c == '0' || c == '1' || c == '_') rest
  | '0' :: 'x' :: rest => isRun (fun c => Number.isHexDigit c || c == '_') rest
  | '0' :: rest => isRun (fun c => ('0' ≤ c && c ≤ '7') || c == '_') rest
  | cs =>
      match Text.pieces [':'] cs with
      | [] => false
      | first :: parts => isGroupedDigits first && parts.all isSixtieth

/-- An exponent with its sign, or nothing. -/
def isSignedExponent : List Char → Bool
  | [] => true
  | e :: sign :: rest =>
      (e == 'e' || e == 'E') && (sign == '-' || sign == '+') && isRun Char.isDigit rest
  | _ => false

/-- A fraction after its point, and perhaps an exponent. -/
def isFraction (cs : List Char) : Bool :=
  isSignedExponent (cs.dropWhile isDigitOrBar)

/-- An unsigned float with digits before its point, perhaps in base sixty. -/
def isUnsignedFloat (cs : List Char) : Bool :=
  let whole := cs.takeWhile (· != '.')
  match cs.dropWhile (· != '.') with
  | '.' :: rest =>
      match Text.pieces [':'] whole with
      | [digits] => isGroupedDigits digits && isFraction rest
      | first :: parts =>
          isGroupedDigits first && parts.all isSixtieth && rest.all isDigitOrBar
      | [] => false
  | _ => false

/-- A float that starts with its point. -/
def isPointFloat : List Char → Bool
  | '.' :: c :: rest => c.isDigit && isFraction rest
  | _ => false

/-- The spellings of the infinite float. -/
def infinities : List String := [".inf", ".Inf", ".INF"]

/-- The spellings of the undefined float. -/
def undefineds : List String := [".nan", ".NaN", ".NAN"]

/-- Whether a spelling is a float. -/
def isFloat (cs : List Char) : Bool :=
  isUnsignedFloat (dropSign cs) || isPointFloat cs ||
    infinities.contains (String.ofList (dropSign cs)) || undefineds.contains (String.ofList cs)

/-- The spellings of the absent value. -/
def nulls : List String := ["", "~", "null", "Null", "NULL"]

/-- The spellings of the true value. -/
def trues : List String := ["yes", "Yes", "YES", "true", "True", "TRUE", "on", "On", "ON"]

/-- The spellings of the false value. -/
def falses : List String := ["no", "No", "NO", "false", "False", "FALSE", "off", "Off", "OFF"]

/-- The spellings that are kept free. -/
def reserved : List String := ["!", "&", "*"]

/-- A spelling without the break that ends it; a break alone is no end. -/
def dropLastBreak (cs : List Char) : List Char :=
  if 1 < cs.length ∧ cs.getLast? = some '\n' then cs.dropLast else cs

/-- The tag of a spelling. -/
def tagOf (cs : List Char) : Tag :=
  let cs := dropLastBreak cs
  let s := String.ofList cs
  if nulls.contains s then .null
  else if trues.contains s || falses.contains s then .bool
  else if isUnsignedInteger (dropSign cs) then .int
  else if isFloat cs then .float
  else if isMoment cs then .moment
  else if s = "<<" then .merge
  else if s = "=" then .content
  else if reserved.contains s then .unknown
  else .text

end Yaml
end ExprLang
