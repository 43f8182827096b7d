import ExprLang.Number.Decimal
import ExprLang.Text.Position

/-!
# Errors of compilation

Lexical and grammatical mistakes are constructors of `SyntaxError`.  A mistake is reported as a
`Problem`: its cause, the span of source text it is about, and the line and column where that
span starts.
-/

namespace ExprLang

/-- The causes of a failing compilation. -/
inductive SyntaxError where
  -- malformed tokens
  | missingHexDigits
  | integerTooLong (start : String)
  | unterminatedString
  | invalidEscape (escape : String)
  | invalidCodePoint (escape : String)
  | invalidOctal
  | unexpectedCharacter (c : Char)
  -- malformed expressions; what was found is a token's text, or nothing at the end of the input
  | trailing (found : Option String)
  | expected (wanted : String) (found : Option String)
  | expectedField (found : Option String)
  | unexpected (found : Option String)
  | nestingExceeded (limit : Int)
  | nestedTooDeeply
  | integerOutOfRange (text : String)
  | unsignedOutOfRange (text : String)
  | reservedIdentifier (name : String)
  | invalidPresenceTest
  | tooManyVariables (macroName : String)
  | variableNotIdentifier (macroName : String)
  | duplicateVariable (name macroName : String)
deriving DecidableEq, Repr

namespace SyntaxError

/-- What was found, inside a message. -/
def describeFound : Option String → String
  | some text => "'" ++ text ++ "'"
  | none => "end of input"

/-- The wording of an error. -/
def message : SyntaxError → String
  | missingHexDigits => "Missing digits in hex literal"
  | integerTooLong start => "Integer literal out of range: " ++ start ++ "..."
  | unterminatedString => "Unterminated string literal"
  | invalidEscape escape => "Invalid escape sequence '\\" ++ escape ++ "'"
  | invalidCodePoint escape => "Invalid unicode code point in escape '\\" ++ escape ++ "'"
  | invalidOctal => "Invalid octal escape sequence"
  | unexpectedCharacter c => "Unexpected character '" ++ String.singleton c ++ "'"
  | trailing found => "Unexpected " ++ describeFound found ++ " after expression"
  | expected wanted found => "Expected '" ++ wanted ++ "', found " ++ describeFound found
  | expectedField found => "Expected field name after '.', found " ++ describeFound found
  | unexpected found => "Unexpected " ++ (match found with
      | some text => "'" ++ text ++ "'"
      | none => "end of input")
  | nestingExceeded limit =>
      "Expression nesting exceeds the maximum depth of " ++ Number.intText limit
  | nestedTooDeeply => "Expression is nested too deeply"
  | integerOutOfRange text => "Integer literal out of range: " ++ text
  | unsignedOutOfRange text => "Unsigned integer literal out of range: " ++ text
  | reservedIdentifier name => "Reserved identifier '" ++ name ++ "'"
  | invalidPresenceTest =>
      "Invalid argument to has() macro: expected a field selection or index"
  | tooManyVariables macroName =>
      "Macro '" ++ macroName ++ "' takes one or two variables and a predicate"
  | variableNotIdentifier macroName =>
      "Variable of macro '" ++ macroName ++ "' must be a simple identifier"
  | duplicateVariable name macroName =>
      "Duplicate variable '" ++ name ++ "' in macro '" ++ macroName ++ "'"

/-- Whether an error is about a malformed token. -/
def isLexical : SyntaxError → Bool
  | missingHexDigits | integerTooLong _ | unterminatedString | invalidEscape _
  | invalidCodePoint _ | invalidOctal | unexpectedCharacter _ => true
  | _ => false

end SyntaxError

/-- A located error. -/
structure Problem where
  cause : SyntaxError
  span : Text.Span
  line : Nat
  col : Nat
deriving DecidableEq, Repr

/-- Locates an error in a source text. -/
def Problem.locate (source : List Char) (cause : SyntaxError) (span : Text.Span) : Problem where
  cause := cause
  span := span
  line := (Text.lineCol source span.start).1
  col := (Text.lineCol source span.start).2

/-- A problem on one line, and below it the line of source that it is about. -/
def Problem.render (source : List Char) (p : Problem) : String :=
  let head := "ParseError: " ++ p.cause.message ++ " (line " ++ Number.natText p.line ++ ", col " ++
    Number.natText p.col ++ ")"
  let context := Text.excerpt source p.line (some p.col) 0
  if context = "" then head else head ++ "\n" ++ context

/-- The report of a failed compilation. -/
def renderProblems (source : List Char) (problems : List Problem) : String :=
  "\n".intercalate (problems.map (Problem.render source))

end ExprLang
