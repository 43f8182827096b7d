import ExprLang.Toml.Moment

/-!
# Numbers in a TOML text

A number may have underscores anywhere but where `isStrict` forbids them.  Its sign is taken off
first and a negative number is zero minus what is left, so that a zero is never negative.
-/

namespace ExprLang
namespace Toml

/-- Whether a number has no zero in front of its digits and underscores between digits only. -/
def isStrict (cs : List Char) : Bool :=
  let cs := Text.strip cs
  let signed := cs.head? == some '-' || cs.head? == some '+'
  let body := if signed then cs.drop 1 else cs
  match cs with
  | [] => false
  | [c] => c != '_'
  | first :: second :: _ =>
      first != '_' && cs.getLast? != some '_' &&
        !Text.occurs ['_', '.'] cs && !Text.occurs ['.', '_'] cs &&
        !(first == '0' && !(['.', 'o', 'b', 'x'].contains second)) &&
        !(signed && body.head? == some '0' && 1 < body.length && body[1]? != some '.') &&
        !Text.occurs ['_', '_'] body

/-- The number of a run of digits without a sign: hexadecimal, octal or binary after a mark, else
decimal without a zero in front. -/
def readMagnitude? (cs : List Char) : Option Nat :=
  let run (holds : Char → Bool) (digits : List Char) (n : Nat) : Option Nat :=
    if !digits.isEmpty && digits.all holds then some n else none
  match cs with
  | '0' :: mark :: digits =>
      match mark.toLower with
      | 'x' => run Number.isHexDigit digits (Number.hexValue digits)
      | 'o' => run (fun c => '0' ≤ c && c ≤ '7') digits (Number.octalValue digits)
      | 'b' => run (fun c => c == '0' || c == '1') digits (Nat.ofDigitChars 2 digits 0)
      | _ => run (· == '0') (mark :: digits) 0
  | _ =>
      if cs.length ≤ Number.integerDigitLimit then run Char.isDigit cs (Number.digitsValue cs)
      else none

/-- An integer with an optional sign, digits of any script, and blanks around it. -/
def readInteger? (cs : List Char) : Option Int :=
  let (negative, body) := Number.takeSign (Number.stripNumber (Number.asciiDigits cs))
  (readMagnitude? body).map fun n => if negative then -(n : Int) else n

/-- Whether a spelling is that of a float: it has a point or an exponent. -/
def isFloatSpelling (cs : List Char) : Bool :=
  cs.contains '.' || (!cs.contains 'x' && (cs.contains 'e' || cs.contains 'E'))

/-- A number without a sign. -/
def readUnsigned? (cs : List Char) : Option Content :=
  if isFloatSpelling cs then
    if cs.dropWhile (· != '.') = ['.'] then none
    else if (cs.head?.map Char.isDigit).getD false then (Number.readFloat? cs).map .float
    else none
  else
    match String.ofList (cs.map Char.toLower) with
    | "inf" => some (.float (1.0 / 0.0))
    | "nan" => some (.float (0.0 / 0.0))
    | _ => (readInteger? cs).map .integer

/-- Zero minus a number. -/
def negated : Content → Content
  | .integer n => .integer (-n)
  | .float f => .float (0.0 - f)
  | c => c

/-- A number with an optional sign. -/
def readNumber? (cs : List Char) : Option Content :=
  let (negative, body) := Number.takeSign cs
  (readUnsigned? (body.filter (· != '_'))).map fun c => if negative then negated c else c

end Toml
end ExprLang
