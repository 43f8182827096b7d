import ExprLang.Number.Decimal
import ExprLang.Number.Shortest
import ExprLang.Text.Blank
import ExprLang.Text.Digit

/-!
# Floats as text

`floatText` writes a float with the shortest digits: positionally when the decimal exponent is
from -4 to 15, always with a fraction, else with an exponent of at least two digits and a sign.
`readFloat?` reads decimal notation.
-/

namespace ExprLang
namespace Number

/-- Drops zeros at the right end. -/
def dropTrailingZeros (digits : List Char) : List Char :=
  (digits.reverse.dropWhile (· == '0')).reverse

/-- The exponent of scientific notation: a sign and at least two digits. -/
def exponentText (e : Int) : String :=
  "e" ++ (if e < 0 then "-" else "+") ++ padded 2 e.natAbs

/-- The digits in positional notation, the point standing after `point` of them. -/
def positionalText (digits : List Char) (point : Int) : String :=
  if point ≤ 0 then
    "0." ++ String.ofList (List.replicate (-point).toNat '0' ++ digits)
  else
    let whole := digits.take point.toNat
    let zeros := List.replicate (point.toNat - digits.length) '0'
    let fraction := digits.drop point.toNat
    String.ofList (whole ++ zeros) ++ "." ++
      (if fraction.isEmpty then "0" else String.ofList fraction)

/-- The digits in scientific notation, `e` being the exponent of the first. -/
def scientificText (digits : List Char) (e : Int) : String :=
  match digits with
  | [] => "0.0"
  | [d] => String.ofList [d] ++ exponentText e
  | d :: rest => String.ofList [d] ++ "." ++ String.ofList rest ++ exponentText e

/-- A positive decimal number as text. -/
def Decimal.text (d : Decimal) : String :=
  let all := Nat.toDigits 10 d.digits
  let point : Int := all.length + d.exponent
  let digits := dropTrailingZeros all
  if -4 < point ∧ point ≤ 16 then positionalText digits point
  else scientificText digits (point - 1)

/-- A float as text. -/
def floatText (f : Float) : String :=
  match dyadic? f with
  | none => if fractionBits f ≠ 0 then "nan" else if signBit f then "-inf" else "inf"
  | some d =>
      let body := if d.mantissa = 0 then "0.0" else (shortest d.mantissa d.exponent).text
      if d.negative then "-" ++ body else body

/-- The float nearest to `digits · 10 ^ exponent`.  A number far outside the range of floats is
decided without multiplying it out. -/
def nearestFloat (digits : Nat) (exponent : Int) : Float :=
  let top : Int := (Nat.toDigits 10 digits).length + exponent
  if digits = 0 then 0.0
  else if 310 < top then 1.0 / 0.0
  else if top < -330 then 0.0
  else if 0 ≤ exponent then Float.ofScientific digits false exponent.toNat
  else Float.ofScientific digits true (-exponent).toNat

/-- A float with the sign that stood before its digits. -/
def signed (negative : Bool) (f : Float) : Float :=
  if negative then -f else f

/-- A leading sign, and what follows it. -/
def takeSign : List Char → Bool × List Char
  | '-' :: rest => (true, rest)
  | '+' :: rest => (false, rest)
  | rest => (false, rest)

/-- The exponent part at the end of a decimal number: nothing, or `e` and a signed integer. -/
def readExponent? : List Char → Option Int
  | [] => some 0
  | c :: rest =>
      if c = 'e' ∨ c = 'E' then
        let (negative, digits) := takeSign rest
        if digits.isEmpty || !digits.all Char.isDigit then none
        else if negative then some (-(digitsValue digits : Int))
        else some (digitsValue digits)
      else
        none

/-- An unsigned decimal number: digits with at most one point, at least one digit in all, and an
optional exponent. -/
def readDecimal? (cs : List Char) : Option Float :=
  let whole := cs.takeWhile Char.isDigit
  let afterWhole := cs.dropWhile Char.isDigit
  let (fraction, afterFraction) :=
    match afterWhole with
    | '.' :: rest => (rest.takeWhile Char.isDigit, rest.dropWhile Char.isDigit)
    | rest => ([], rest)
  if whole.isEmpty && fraction.isEmpty then
    none
  else
    (readExponent? afterFraction).map fun e =>
      nearestFloat (digitsValue (whole ++ fraction)) (e - fraction.length)

/-- The names of the floats that are not finite. -/
def readSpecial? (cs : List Char) : Option Float :=
  let name := String.ofList (cs.map Char.toLower)
  if name = "inf" ∨ name = "infinity" then some (1.0 / 0.0)
  else if name = "nan" then some (0.0 / 0.0)
  else none

/-- Removes underscores that stand between digits; an underscore elsewhere is refused.  `last` is
the character before. -/
def dropUnderscores? : Char → List Char → Option (List Char)
  | last, [] => if last = '_' then none else some []
  | last, '_' :: rest => if last.isDigit then dropUnderscores? '_' rest else none
  | last, c :: rest =>
      if last = '_' ∧ !c.isDigit then none
      else (dropUnderscores? c rest).map (c :: ·)

/-- The ASCII form of numeric text: a digit of any script becomes the digit of its value, and
whitespace outside ASCII a space. -/
def asciiDigits (cs : List Char) : List Char :=
  cs.map fun c =>
    if c.toNat < 128 then c
    else if Text.isBlank c then ' '
    else
      match Text.digitValue? c with
      | some d => Nat.digitChar d
      | none => c

/-- Whether a character may surround a number. -/
def isNumberBlank (c : Char) : Bool :=
  c == ' ' || (9 ≤ c.toNat && c.toNat ≤ 13)

/-- Drops what may surround a number. -/
def stripNumber (cs : List Char) : List Char :=
  ((cs.dropWhile isNumberBlank).reverse.dropWhile isNumberBlank).reverse

/-- Reads a float: decimal notation or the name of a float that is not finite, with an optional
sign, underscores between digits, digits of any script, and surrounding whitespace. -/
def readFloat? (cs : List Char) : Option Float := do
  let plain ← dropUnderscores? ' ' (stripNumber (asciiDigits cs))
  let (negative, body) := takeSign plain
  let f ← (readDecimal? body).orElse fun _ => readSpecial? body
  pure (signed negative f)

/-- The number of digits beyond which text is not read as an integer. -/
def integerDigitLimit : Nat := 4300

/-- What is said when a run of digits is too long to be read as an integer. -/
def tooManyDigitsMessage (count : Nat) : String :=
  "Exceeds the limit (4300 digits) for integer string conversion: value has " ++
    natText count ++ " digits; use sys.set_int_max_str_digits() to increase the limit"

/-- Reads an integer: ASCII or other decimal digits with an optional sign, underscores between
digits, and surrounding whitespace. -/
def readInt? (cs : List Char) : Option Int := do
  let (negative, body) := takeSign (stripNumber (asciiDigits cs))
  let digits ← dropUnderscores? ' ' body
  if digits.isEmpty || !digits.all Char.isDigit then none
  else if negative then some (-(digitsValue digits : Int))
  else some (digitsValue digits)

end Number
end ExprLang
