import ExprLang.Token.Literal

/-!
# Tokens of a source text

`tokenize` splits a source text into tokens, the end of input being the last, and lists the
mistakes that it met.  A mistake never stops it: scanning goes on after the malformed part.

The text is walked once.  Where an item starts, its length is determined, and the walk passes over
that many characters; whitespace and comments are items without a token.
-/

namespace ExprLang
namespace Lexer

open Literal (Item)

/-- Whether a character separates tokens. -/
def isSpace (c : Char) : Bool :=
  c == ' ' || c == '\t' || c == '\r' || c == '\n' || c == '\x0c'

/-- The length of a comment, its newline included. -/
def commentLength (cs : List Char) : Nat :=
  let line := cs.takeWhile (· != '\n')
  min cs.length (line.length + 1)

/-- The operators, those of two characters first. -/
def operators : List (List Char) :=
  [['|', '|'], ['&', '&'], ['=', '='], ['!', '='], ['<', '='], ['>', '='], ['<'], ['>'], ['+'],
    ['-'], ['*'], ['/'], ['%'], ['!'], ['?'], [':']]

/-- The punctuation marks. -/
def punctuation : List Char := ['(', ')', '[', ']', '\x7b', '\x7d', ',', '.']

/-- The kind of a word. -/
def wordKind (word : List Char) : TokenKind :=
  match String.ofList word with
  | "true" => .bool true
  | "false" => .bool false
  | "null" => .null
  | "in" => .operator
  | _ => .ident

/-- An operator or a punctuation mark; any other character is a mistake. -/
def scanSymbol (pos : Nat) (c : Char) (cs : List Char) : Item :=
  match operators.find? (·.isPrefixOf cs) with
  | some op => .good op.length .operator
  | none =>
      if punctuation.contains c then .good 1 .punctuation
      else .bad pos 1 (.unexpectedCharacter c)

/-- The item at the front of a text that starts with `c`. -/
def scanItem (pos : Nat) (c : Char) (rest : List Char) : Item :=
  let cs := c :: rest
  if isSpace c then ⟨1, none, []⟩
  else if c = '/' ∧ rest.head? = some '/' then ⟨commentLength cs, none, []⟩
  else if c.isDigit then Literal.scanNumber pos cs
  else
    match Literal.opening? cs with
    | some o => Literal.scanString pos o cs
    | none =>
        if isIdentStart c then
          let word := cs.takeWhile isIdentPart
          .good word.length (wordKind word)
        else
          scanSymbol pos c cs

/-- Tokens and mistakes, in the order of the source. -/
structure Scan where
  tokens : List Token
  errors : List (SyntaxError × Text.Span)

/-- Puts an item in front of what follows it; `cs` is the text that starts with the item. -/
def Scan.push (item : Item) (pos : Nat) (cs : List Char) (later : Scan) : Scan where
  tokens :=
    match item.kind with
    | some kind =>
        ⟨kind, String.ofList (cs.take item.length), ⟨pos, pos + item.length⟩⟩ :: later.tokens
    | none => later.tokens
  errors := item.errors ++ later.errors

/-- Scans a text from an offset on; `skip` characters of the last item are still to be passed. -/
def scanFrom : Nat → Nat → List Char → Scan
  | _, _, [] => ⟨[], []⟩
  | pos, skip + 1, _ :: rest => scanFrom (pos + 1) skip rest
  | pos, 0, c :: rest =>
      let item := scanItem pos c rest
      (scanFrom (pos + 1) (item.length - 1) rest).push item pos (c :: rest)

/-- The tokens of a source text before the end of input, and its lexical mistakes. -/
def scan (source : List Char) : Scan :=
  scanFrom 0 0 source

end Lexer

/-- The tokens of a source text, the end of input last, and its lexical problems. -/
def tokenize (source : List Char) : List Token × List Problem :=
  let result := Lexer.scan source
  (result.tokens ++ [.endOfInput source.length],
    result.errors.map fun (cause, span) => Problem.locate source cause span)

end ExprLang
