import ExprLang.Host.Object
import ExprLang.Text.Base64
import ExprLang.Yaml.ReadError
import ExprLang.Yaml.Tag

/-!
# The meaning of scalars

`readScalar` reads a scalar by its tag.  A tag that was written may stand in front of any text, so
that texts are read here that have no such tag by their spelling.
-/

namespace ExprLang
namespace Yaml

/-! ### Integers -/

/-- The value of a digit in a base. -/
def digitValue? (base : Nat) (c : Char) : Option Nat :=
  (Number.hexValue? c).filter (· < base)

/-- The letters that mark a base. -/
def baseLetters (base : Nat) : List Char :=
  match base with
  | 2 => ['b', 'B']
  | 8 => ['o', 'O']
  | 16 => ['x', 'X']
  | _ => []

/-- Drops the mark of a base. -/
def dropBaseMark (base : Nat) : List Char → List Char
  | '0' :: letter :: rest =>
      if (baseLetters base).contains letter then rest else '0' :: letter :: rest
  | cs => cs

/-- Reads an integer in a base: digits of any script with an optional sign and mark, and blanks
around them. -/
def readIntegerIn (base : Nat) (cs : List Char) : Except ReadError Int :=
  let (negative, body) := Number.takeSign (Number.stripNumber (Number.asciiDigits cs))
  let digits := dropBaseMark base body
  let values := (digits.takeWhile fun c => (digitValue? base c).isSome).filterMap (digitValue? base)
  if base = 10 ∧ Number.integerDigitLimit < values.length then .error (.tooManyDigits values.length)
  else if values.isEmpty ∨ values.length < digits.length then
    .error (.noInteger base (String.ofList cs))
  else
    let n := values.foldl (fun n d => base * n + d) 0
    .ok (if negative then -(n : Int) else n)

/-- Reads an integer without a sign and underscores. -/
def readUnsigned : List Char → Except ReadError Int
  | [] => .error .noCharacter
  | ['0'] => .ok 0
  | '0' :: 'b' :: rest => readIntegerIn 2 rest
  | '0' :: 'x' :: rest => readIntegerIn 16 rest
  | '0' :: rest => readIntegerIn 8 ('0' :: rest)
  | cs => (Text.pieces [':'] cs).foldlM (fun n part => do pure (60 * n + (← readIntegerIn 10 part))) 0

/-- Reads an integer. -/
def readInteger (cs : List Char) : Except ReadError HostObject := do
  let digits := cs.filter (· != '_')
  let n ← readUnsigned (dropSign digits)
  pure (.int (if digits.head? == some '-' then -n else n))

/-! ### Floats -/

/-- Reads one part of a float. -/
def readFloatPart (cs : List Char) : Except ReadError Float :=
  match Number.readFloat? cs with
  | some f => .ok f
  | none => .error (.noFloat (String.ofList cs))

/-- The number of parts in base sixty beyond which a float is not read: sixty times itself that often
is more than the largest float. -/
def floatPartLimit : Nat := 174

/-- Reads a float without a sign and underscores.  In base sixty the last part counts once, the one
before sixty times, and so on, summed from the last. -/
def readUnsignedFloat (cs : List Char) : Except ReadError Float :=
  if !cs.contains ':' then readFloatPart cs
  else do
    let parts ← (Text.pieces [':'] cs).mapM readFloatPart
    if floatPartLimit < parts.length then throw .tooManyParts
    pure (parts.reverse.foldl (fun (sum : Float × Nat) part =>
      (sum.1 + part * Float.ofNat sum.2, sum.2 * 60)) (0.0, 1)).1

/-- Reads a float. -/
def readFloat (cs : List Char) : Except ReadError HostObject := do
  let digits := (cs.filter (· != '_')).map Char.toLower
  let body := dropSign digits
  let negative := digits.head? == some '-'
  match String.ofList body with
  | ".inf" => pure (.float (Number.signed negative (1.0 / 0.0)))
  | ".nan" => pure (.float (0.0 / 0.0))
  | _ =>
      if digits.isEmpty then throw .noCharacter
      pure (.float (Number.signed negative (← readUnsignedFloat body)))

/-! ### Other scalars -/

/-- Reads a truth value. -/
def readBool (cs : List Char) : Except ReadError HostObject :=
  let word := String.ofList (cs.map Char.toLower)
  if trues.contains word then .ok (.bool true)
  else if falses.contains word then .ok (.bool false)
  else .error (.noBool word)

/-- Reads a date. -/
def readMoment (cs : List Char) : Except ReadError HostObject :=
  match readMoment? (dropLastBreak cs) with
  | none => .error .noMoment
  | some fields =>
      match fields.check with
      | .error e => .error (.moment e)
      | .ok t =>
          if fields.clock.isEmpty then .ok (.date t.date)
          else if fields.offset.isSome then .ok (.timestamp t)
          else .ok (.localTime t)

/-- Reads octets, which are written in Base64. -/
def readOctets (cs : List Char) : Except ReadError HostObject :=
  if cs.all fun c => c.toNat < 128 then
    match Text.Base64.decode? cs with
    | some octets => .ok (.octets octets)
    | none => .error .malformed
  else .error .malformed

/-- Reads a scalar by its tag. -/
def readScalar (tag : Tag) (cs : List Char) : Except ReadError HostObject :=
  match tag with
  | .null => .ok .none
  | .bool => readBool cs
  | .int => readInteger cs
  | .float => readFloat cs
  | .octets => readOctets cs
  | .moment => readMoment cs
  | .text => .ok (.text (String.ofList cs))
  | _ => .error .malformed

end Yaml
end ExprLang
