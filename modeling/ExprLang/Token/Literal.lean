import ExprLang.Number.FloatText
import ExprLang.SyntaxError
import ExprLang.Text.Utf8
import ExprLang.Token

/-!
# Literals

Scanners for numbers, strings and octet strings.  Each looks at the front of a text and says how
many characters belong to the literal, what it denotes, and what is wrong with it.  Offsets of
mistakes count from the start of the whole source, which is why scanners are told where they
stand.
-/

namespace ExprLang
namespace Literal

/-- What a scanner found: the number of characters, the token if there is one, and the mistakes. -/
structure Item where
  length : Nat
  kind : Option TokenKind
  errors : List (SyntaxError × Text.Span)

/-- A scanner's report of a token without mistakes. -/
def Item.good (length : Nat) (kind : TokenKind) : Item :=
  ⟨length, some kind, []⟩

/-- A scanner's report of a mistake that is no token. -/
def Item.bad (pos length : Nat) (cause : SyntaxError) : Item :=
  ⟨length, none, [(cause, ⟨pos, pos + length⟩)]⟩

/-! ### Numbers -/

/-- Whether a text goes on with the mark of an unsigned integer. -/
def hasUnsignedMark : List Char → Bool
  | c :: _ => c == 'u' || c == 'U'
  | [] => false

/-- An integer, which a following mark makes unsigned. -/
def integerItem (length value : Nat) (rest : List Char) : Item :=
  if hasUnsignedMark rest then .good (length + 1) (.uint value) else .good length (.int value)

/-- A hexadecimal integer; `digits` starts after `0x`. -/
def scanHex (pos : Nat) (digits : List Char) : Item :=
  let run := digits.takeWhile Number.isHexDigit
  if run.isEmpty then .bad pos 2 .missingHexDigits
  else integerItem (2 + run.length) (Number.hexValue run) (digits.drop run.length)

/-- The length of a fraction: a point with a digit after it, and all digits that follow. -/
def fractionLength : List Char → Nat
  | '.' :: rest =>
      let run := rest.takeWhile Char.isDigit
      if run.isEmpty then 0 else run.length + 1
  | _ => 0

/-- The length of an exponent: `e`, perhaps a sign, and at least one digit. -/
def exponentLength : List Char → Nat
  | c :: rest =>
      if c = 'e' ∨ c = 'E' then
        match rest with
        | s :: digits =>
            if s = '+' ∨ s = '-' then
              let run := digits.takeWhile Char.isDigit
              if run.isEmpty then 0 else run.length + 2
            else
              let run := rest.takeWhile Char.isDigit
              if run.isEmpty then 0 else run.length + 1
        | [] => 0
      else
        0
  | [] => 0

/-- A decimal number.  Without fraction and exponent it is an integer, and refused if it has more
digits than can be read. -/
def scanDecimal (pos : Nat) (cs : List Char) : Item :=
  let whole := (cs.takeWhile Char.isDigit).length
  let fraction := fractionLength (cs.drop whole)
  let exponent := exponentLength (cs.drop (whole + fraction))
  let length := whole + fraction + exponent
  let text := cs.take length
  if fraction + exponent > 0 then
    .good length (.float ((Number.readDecimal? text).getD 0.0))
  else if length > Number.integerDigitLimit then
    let marked := if hasUnsignedMark (cs.drop length) then length + 1 else length
    .bad pos marked (.integerTooLong (String.ofList (text.take 20)))
  else
    integerItem length (Number.digitsValue text) (cs.drop length)

/-- A number. -/
def scanNumber (pos : Nat) (cs : List Char) : Item :=
  match cs with
  | '0' :: x :: digits => if x = 'x' ∨ x = 'X' then scanHex pos digits else scanDecimal pos cs
  | _ => scanDecimal pos cs

/-! ### Strings and octet strings -/

/-- What a string literal is made of: characters, and octets that an escape gives directly. -/
inductive Piece where
  | char (c : Char)
  | octet (b : UInt8)
deriving DecidableEq

/-- The opening of a string: the letters before its quote, and the quote. -/
structure Opening where
  letters : Nat
  raw : Bool
  isBytes : Bool
  quote : Char
deriving DecidableEq

/-- Whether a character is a quote. -/
def isQuote (c : Char) : Bool :=
  c == '"' || c == '\''

/-- Whether a letter in front of a string makes it raw. -/
def isRawLetter (c : Char) : Bool :=
  c == 'r' || c == 'R'

/-- Whether a letter in front of a string makes it a string of octets. -/
def isBytesLetter (c : Char) : Bool :=
  c == 'b' || c == 'B'

/-- The opening of a string at the front of a text: a quote, perhaps after one of the letters `r`
and `b` or after both in either order. -/
def opening? : List Char → Option Opening
  | a :: b :: q :: _ =>
      if isQuote a then some ⟨0, false, false, a⟩
      else if (isRawLetter a && isBytesLetter b || isBytesLetter a && isRawLetter b) && isQuote q
        then some ⟨2, true, true, q⟩
      else if (isRawLetter a || isBytesLetter a) && isQuote b
        then some ⟨1, isRawLetter a, isBytesLetter a, b⟩
      else none
  | [a, b] =>
      if isQuote a then some ⟨0, false, false, a⟩
      else if (isRawLetter a || isBytesLetter a) && isQuote b
        then some ⟨1, isRawLetter a, isBytesLetter a, b⟩
      else none
  | [a] => if isQuote a then some ⟨0, false, false, a⟩ else none
  | [] => none

/-- The delimiter of a string: three quotes if the text after the letters starts with three, else
one. -/
def delimiter (quote : Char) (cs : List Char) : List Char :=
  if (List.replicate 3 quote).isPrefixOf cs then List.replicate 3 quote else [quote]

/-- What the character after a backslash stands for. -/
def simpleEscape? (c : Char) : Option Char :=
  [('\\', '\\'), ('"', '"'), ('\'', '\''), ('\x60', '\x60'), ('?', '?'), ('a', '\x07'),
    ('b', '\x08'), ('f', '\x0c'), ('n', '\n'), ('r', '\r'), ('t', '\t'), ('v', '\x0b')].lookup c

/-- The number of hexadecimal digits that an escape letter asks for. -/
def escapeWidth? (c : Char) : Option Nat :=
  if c = 'x' ∨ c = 'X' then some 2
  else if c = 'u' then some 4
  else if c = 'U' then some 8
  else none

/-- Whether a number is a character and not half of a surrogate pair. -/
def isCodePoint (code : Nat) : Bool :=
  code < 0xD800 || (0xDFFF < code && code ≤ 0x10FFFF)

/-- Whether a character is a digit of base eight. -/
def isOctalDigit (c : Char) : Bool :=
  '0' ≤ c && c ≤ '7'

/-- An escape: the number of characters after the backslash, and what it stands for. -/
structure Escape where
  length : Nat
  result : Except SyntaxError Piece

/-- A hexadecimal escape; `rest` starts after the escape letter.  With too few digits only the
letter belongs to the escape. -/
def hexEscape (isBytes : Bool) (letter : Char) (width : Nat) (rest : List Char) : Escape :=
  let digits := rest.take width
  if digits.length ≠ width ∨ !digits.all Number.isHexDigit then
    ⟨1, .error (.invalidEscape (String.singleton letter))⟩
  else
    let code := Number.hexValue digits
    if isBytes ∧ width = 2 then ⟨1 + width, .ok (.octet code.toUInt8)⟩
    else if isCodePoint code then ⟨1 + width, .ok (.char (Char.ofNat code))⟩
    else ⟨1 + width, .error (.invalidCodePoint (String.ofList (letter :: digits)))⟩

/-- An octal escape of three digits; `cs` starts with the first. -/
def octalEscape (isBytes : Bool) (cs : List Char) : Escape :=
  let digits := cs.take 3
  let code := Number.octalValue digits
  if digits.length ≠ 3 ∨ !digits.all isOctalDigit ∨ 255 < code then ⟨1, .error .invalidOctal⟩
  else if isBytes then ⟨3, .ok (.octet code.toUInt8)⟩
  else ⟨3, .ok (.char (Char.ofNat code))⟩

/-- The escape that follows a backslash. -/
def scanEscape (isBytes : Bool) : List Char → Escape
  | [] => ⟨0, .error (.invalidEscape "")⟩
  | c :: rest =>
      match simpleEscape? c, escapeWidth? c with
      | some plain, _ => ⟨1, .ok (.char plain)⟩
      | none, some width => hexEscape isBytes c width rest
      | none, none =>
          if isOctalDigit c then octalEscape isBytes (c :: rest)
          else ⟨1, .error (.invalidEscape (String.singleton c))⟩

/-- What stands between the delimiters: the characters taken, the closing delimiter included, the
pieces, and the mistakes. -/
structure Body where
  length : Nat
  pieces : List Piece
  errors : List (SyntaxError × Text.Span)

/-- A body that starts with one more character. -/
def Body.afterChar (b : Body) : Body :=
  { b with length := b.length + 1 }

/-- The pieces and mistakes of a string, up to its closing delimiter.  `start` is where the literal
starts and `pos` where the scan stands; `skip` characters of an escape are still to be passed. -/
def scanBody (delim : List Char) (raw isBytes : Bool) (start : Nat) :
    Nat → Nat → List Char → Body
  | pos, _, [] => ⟨0, [], [(.unterminatedString, ⟨start, max pos (start + 1)⟩)]⟩
  | pos, skip + 1, _ :: rest =>
      (scanBody delim raw isBytes start (pos + 1) skip rest).afterChar
  | pos, 0, c :: rest =>
      if delim.length = 1 ∧ c = '\n' then
        ⟨0, [], [(.unterminatedString, ⟨start, max pos (start + 1)⟩)]⟩
      else if delim.isPrefixOf (c :: rest) then
        ⟨delim.length, [], []⟩
      else if c = '\\' ∧ !raw then
        let escape := scanEscape isBytes rest
        let later := scanBody delim raw isBytes start (pos + 1) escape.length rest
        match escape.result with
        | .ok piece => ⟨later.length + 1, piece :: later.pieces, later.errors⟩
        | .error cause =>
            let span : Text.Span := ⟨pos, pos + 1 + escape.length⟩
            ⟨later.length + 1, later.pieces, (cause, span) :: later.errors⟩
      else
        let later := scanBody delim raw isBytes start (pos + 1) 0 rest
        ⟨later.length + 1, .char c :: later.pieces, later.errors⟩

/-- The characters of a string. -/
def textOf (pieces : List Piece) : List Char :=
  pieces.map fun
    | .char c => c
    | .octet b => Char.ofNat b.toNat

/-- The octets of an octet string: characters are encoded, octets stand for themselves. -/
def octetsOf (pieces : List Piece) : List UInt8 :=
  pieces.flatMap fun
    | .char c => Text.Utf8.encodeChar c
    | .octet b => [b]

/-- A string or an octet string.  A string with mistakes is still a token. -/
def scanString (pos : Nat) (o : Opening) (cs : List Char) : Item :=
  let delim := delimiter o.quote (cs.drop o.letters)
  let before := o.letters + delim.length
  let body := scanBody delim o.raw o.isBytes pos (pos + before) 0 (cs.drop before)
  let kind :=
    if o.isBytes then TokenKind.bytes (octetsOf body.pieces)
    else TokenKind.string (String.ofList (textOf body.pieces))
  ⟨before + body.length, some kind, body.errors⟩

end Literal
end ExprLang
