import ExprLang.Number.FloatText
import ExprLang.Text.Quoted
import ExprLang.Time.TimestampText

/-!
# Why a YAML text is not read

Most texts that are not read are malformed.  A scalar that is marked to be of a kind, but is not
spelled like one, and an escape that stands for no character have errors of their own.
-/

namespace ExprLang
namespace Yaml

/-- Why a text is not read. -/
inductive ReadError where
  | malformed
  | tooManyDigits (count : Nat)
  /-- What should be an integer in a base is none. -/
  | noInteger (base : Nat) (text : String)
  /-- What should be a float is none. -/
  | noFloat (text : String)
  /-- What should be a number has no character. -/
  | noCharacter
  /-- What should be a truth value is none. -/
  | noBool (word : String)
  /-- What should be a date is none. -/
  | noMoment
  /-- What should be a date is a map, which a date cannot be written as. -/
  | momentInMap
  /-- A date that does not exist. -/
  | moment (error : Time.TimestampError)
  /-- A float in base sixty has so many parts that the first of them counts more than the largest
  float. -/
  | tooManyParts
  /-- The number of an escape is not that of a character. -/
  | noCodePoint
  /-- The number of an escape is not that of a character and does not fit into 31 bits. -/
  | escapeTooLarge
  /-- A collection is within itself. -/
  | endless
deriving DecidableEq, Repr

/-- The wording of an error. -/
def ReadError.message : ReadError → String
  | malformed => "malformed document"
  | tooManyDigits count => Number.tooManyDigitsMessage count
  | noInteger base text =>
      "invalid literal for int() with base " ++ Number.natText base ++ ": " ++
        String.ofList ((Text.Quoted.text text).toList.take 200)
  | noFloat text => "could not convert string to float: " ++ Text.Quoted.text text
  | noCharacter => "string index out of range"
  | noBool word => Text.Quoted.text word
  | noMoment => "'NoneType' object has no attribute 'groupdict'"
  | momentInMap => "expected string or bytes-like object, got 'list'"
  | moment error => error.message
  | tooManyParts => "int too large to convert to float"
  | noCodePoint => "chr() arg not in range(0x110000)"
  | escapeTooLarge => "Python int too large to convert to C int"
  | endless => "maximum recursion depth exceeded"

end Yaml
end ExprLang
