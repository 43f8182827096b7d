import ExprLang.Document

/-!
# Reading JSON

`Json.parse` reads a JSON text.  Besides the standard it takes the names of the floats that are not
finite.  A number without a fraction and an exponent is an integer.  Of two members with one name
the later wins, in the place of the first.
-/

namespace ExprLang
namespace Json

/-- Why a text is not read: it is no JSON, or an integer in it has too many digits. -/
inductive Fault where
  | malformed
  | tooManyDigits (count : Nat)
deriving DecidableEq, Repr

/-- Whether a character may stand between tokens. -/
def isBlank (c : Char) : Bool :=
  c == ' ' || c == '\t' || c == '\n' || c == '\r'

/-- Drops what may stand before a token. -/
def skipBlank (cs : List Char) : List Char :=
  cs.dropWhile isBlank

/-- The number that four hexadecimal digits denote. -/
def hexCode? (a b c d : Char) : Option Nat :=
  if [a, b, c, d].all Number.isHexDigit then some (Number.hexValue [a, b, c, d]) else none

/-- What an escape of one letter stands for. -/
def letterEscape? (c : Char) : Option Char :=
  if c = '"' ∨ c = '\\' ∨ c = '/' then some c
  else if c = 'b' then some '\x08'
  else if c = 'f' then some '\x0c'
  else if c = 'n' then some '\n'
  else if c = 'r' then some '\r'
  else if c = 't' then some '\t'
  else none

/-- The codes of the characters of a string up to its closing quote, and what follows the quote.
Control characters are refused. -/
def takeCodes? : List Char → Option (List Nat × List Char)
  | [] => none
  | '"' :: rest => some ([], rest)
  | '\\' :: 'u' :: a :: b :: c :: d :: rest => do
      let code ← hexCode? a b c d
      let (codes, rest) ← takeCodes? rest
      some (code :: codes, rest)
  | '\\' :: c :: rest => do
      let meant ← letterEscape? c
      let (codes, rest) ← takeCodes? rest
      some (meant.toNat :: codes, rest)
  | c :: rest =>
      if c.toNat < 32 ∨ c = '\\' then none
      else do
        let (codes, rest) ← takeCodes? rest
        some (c.toNat :: codes, rest)

/-- Whether a code is the first half of a pair that stands for one character. -/
def isHighHalf (code : Nat) : Bool :=
  0xD800 ≤ code && code < 0xDC00

/-- Whether a code is the second half of a pair that stands for one character. -/
def isLowHalf (code : Nat) : Bool :=
  0xDC00 ≤ code && code < 0xE000

/-- The character of a code; a half without the other half has none, and is shown as the
replacement character. -/
def charOfCode (code : Nat) : Char :=
  if isHighHalf code || isLowHalf code then Text.Utf8.replacement else Char.ofNat code

/-- The characters of codes; two halves that follow one another become one character. -/
def joinHalves : List Nat → List Char
  | [] => []
  | [code] => [charOfCode code]
  | high :: low :: rest =>
      if isHighHalf high && isLowHalf low then
        Char.ofNat (0x10000 + (high - 0xD800) * 1024 + (low - 0xDC00)) :: joinHalves rest
      else
        charOfCode high :: joinHalves (low :: rest)

/-- The string up to its closing quote, and what follows the quote. -/
def takeString? (cs : List Char) : Option (String × List Char) :=
  (takeCodes? cs).map fun (codes, rest) => (String.ofList (joinHalves codes), rest)

/-- The whole part of a number: zero, or digits that do not start with zero. -/
def takeWhole? : List Char → Option (List Char × List Char)
  | [] => none
  | c :: rest =>
      if c = '0' then some ([c], rest)
      else if c.isDigit then
        some (c :: rest.takeWhile Char.isDigit, rest.dropWhile Char.isDigit)
      else none

/-- The fraction of a number: a point and digits.  Where they do not stand there is none. -/
def takeFraction : List Char → List Char × List Char
  | '.' :: c :: rest =>
      if c.isDigit then
        ('.' :: c :: rest.takeWhile Char.isDigit, rest.dropWhile Char.isDigit)
      else ([], '.' :: c :: rest)
  | cs => ([], cs)

/-- The exponent of a number: `e`, perhaps a sign, and digits.  Where they do not stand there is
none. -/
def takeExponent (cs : List Char) : List Char × List Char :=
  match cs with
  | mark :: rest =>
      if mark = 'e' ∨ mark = 'E' then
        let (sign, digits) :=
          match rest with
          | '+' :: more => (['+'], more)
          | '-' :: more => (['-'], more)
          | more => ([], more)
        if (digits.takeWhile Char.isDigit).isEmpty then ([], cs)
        else (mark :: sign ++ digits.takeWhile Char.isDigit, digits.dropWhile Char.isDigit)
      else ([], cs)
  | [] => ([], [])

/-- The number at the front of a text, after its sign. -/
def takeNumber (negative : Bool) (cs : List Char) : Except Fault (Document × List Char) :=
  match takeWhole? cs with
  | none => .error .malformed
  | some (whole, rest) =>
      let (fraction, rest) := takeFraction rest
      let (exponent, rest) := takeExponent rest
      if fraction.isEmpty && exponent.isEmpty then
        if whole.length > Number.integerDigitLimit then .error (.tooManyDigits whole.length)
        else
          let n := Number.digitsValue whole
          .ok (.int (if negative then -(n : Int) else n), rest)
      else
        match Number.readDecimal? (whole ++ fraction ++ exponent) with
        | some f => .ok (.float (Number.signed negative f), rest)
        | none => .error .malformed

/-- The names of documents that are one word. -/
def words : List (List Char × Document) := [
  ("null".toList, .null), ("true".toList, .bool true), ("false".toList, .bool false),
  ("NaN".toList, .float (0.0 / 0.0)), ("Infinity".toList, .float (1.0 / 0.0)),
  ("-Infinity".toList, .float (-1.0 / 0.0))]

/-- The word at the front of a text. -/
def takeWord? (cs : List Char) : Option (Document × List Char) :=
  (words.find? fun w => w.1.isPrefixOf cs).map fun w => (w.2, cs.drop w.1.length)

/-- A word or a number at the front of a text. -/
def takeScalar (cs : List Char) : Except Fault (Document × List Char) :=
  match takeWord? cs with
  | some found => .ok found
  | none =>
      match cs with
      | '-' :: rest => takeNumber true rest
      | _ => takeNumber false cs

mutual

/-- The document at the front of a text, nested at most `fuel` deep. -/
def parseValue : Nat → List Char → Except Fault (Document × List Char)
  | 0, _ => .error .malformed
  | _ + 1, '"' :: rest =>
      match takeString? rest with
      | some (s, rest) => .ok (.string s, rest)
      | none => .error .malformed
  | fuel + 1, '[' :: rest =>
      match skipBlank rest with
      | ']' :: rest => .ok (.array [], rest)
      | rest => do
          let (items, rest) ← parseItems fuel rest
          pure (.array items, rest)
  | fuel + 1, '{' :: rest =>
      match skipBlank rest with
      | '}' :: rest => .ok (.object [], rest)
      | rest => do
          let (members, rest) ← parseMembers fuel rest
          pure (.object (Assoc.ofList (· == ·) members), rest)
  | _ + 1, cs => takeScalar cs

/-- The items of an array up to its closing bracket. -/
def parseItems : Nat → List Char → Except Fault (List Document × List Char)
  | 0, _ => .error .malformed
  | fuel + 1, cs => do
      let (d, rest) ← parseValue fuel cs
      match skipBlank rest with
      | ']' :: rest => pure ([d], rest)
      | ',' :: rest => do
          let (items, rest) ← parseItems fuel (skipBlank rest)
          pure (d :: items, rest)
      | _ => .error .malformed

/-- The members of an object up to its closing brace. -/
def parseMembers : Nat → List Char → Except Fault (List (String × Document) × List Char)
  | 0, _ => .error .malformed
  | fuel + 1, '"' :: rest =>
      match takeString? rest with
      | none => .error .malformed
      | some (name, rest) =>
          match skipBlank rest with
          | ':' :: rest => do
              let (d, rest) ← parseValue fuel (skipBlank rest)
              match skipBlank rest with
              | '}' :: rest => pure ([(name, d)], rest)
              | ',' :: rest => do
                  let (members, rest) ← parseMembers fuel (skipBlank rest)
                  pure ((name, d) :: members, rest)
              | _ => .error .malformed
          | _ => .error .malformed
  | _ + 1, _ => .error .malformed

end

/-- Reads a JSON text. -/
def parse (text : String) : Except Fault Document :=
  let cs := text.toList
  match parseValue (cs.length + 1) (skipBlank cs) with
  | .error fault => .error fault
  | .ok (d, rest) => if (skipBlank rest).isEmpty then .ok d else .error .malformed

end Json
end ExprLang
