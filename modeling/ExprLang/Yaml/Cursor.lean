/-!
# A place in a text

A cursor is what is left of a text, with the line and column reached and the number of characters
passed.
-/

namespace ExprLang
namespace Yaml

/-- What is left of a text, and where it stands. -/
structure Cursor where
  rest : List Char
  line : Nat
  column : Nat
  index : Nat

/-- Whether a character ends a line. -/
def isBreak (c : Char) : Bool :=
  c == '\n' || c == '\r' || c == '\x85' || c == '\u2028' || c == '\u2029'

/-- Whether a character is a blank or a tab. -/
def isGap (c : Char) : Bool :=
  c == ' ' || c == '\t'

/-- Whether the end of the text, a blank or the end of a line follows. -/
def isWordEnd : List Char → Bool
  | [] => true
  | c :: _ => c == ' ' || isBreak c

/-- Whether the end of the text, a blank, a tab or the end of a line follows. -/
def isBoundary (cs : List Char) : Bool :=
  isWordEnd cs || cs.head? == some '\t'

/-- Whether a mark that bounds a document stands at the front of a text. -/
def isDocumentMark : List Char → Bool
  | '-' :: '-' :: '-' :: rest => isBoundary rest
  | '.' :: '.' :: '.' :: rest => isBoundary rest
  | _ => false

/-- What a break inside a scalar is read as: one alone is a blank, further ones stand for
themselves. -/
def foldBreaks (first : Char) (further : List Char) : List Char :=
  if first ≠ '\n' then first :: further
  else if further.isEmpty then [' ']
  else further

namespace Cursor

/-- The beginning of a text. -/
def start (cs : List Char) : Cursor := ⟨cs, 0, 0, 0⟩

/-- Passes `count` characters of one line.  A mark of byte order takes no column. -/
def advance (c : Cursor) (count : Nat) : Cursor :=
  let wide := (c.rest.take count).countP (· != '\uFEFF')
  { c with rest := c.rest.drop count, column := c.column + wide, index := c.index + count }

/-- Passes characters of one line as long as they are in a class. -/
def skip (c : Cursor) (holds : Char → Bool) : Cursor :=
  c.advance (c.rest.takeWhile holds).length

/-- Whether the end of a line or of the text is here. -/
def isAtLineEnd (c : Cursor) : Bool :=
  (c.rest.head?.map isBreak).getD true

/-- Passes the end of a line, if it is here, and gives the break that it is read as. -/
def lineBreak? (c : Cursor) : Option (Char × Cursor) :=
  let next (count : Nat) : Cursor := ⟨c.rest.drop count, c.line + 1, 0, c.index + count⟩
  match c.rest with
  | '\r' :: '\n' :: _ => some ('\n', next 2)
  | b :: _ =>
      if b = '\u2028' ∨ b = '\u2029' then some (b, next 1)
      else if isBreak b then some ('\n', next 1)
      else none
  | [] => none

/-- Passes the end of a line, if it is here. -/
def skipBreak (c : Cursor) : Cursor :=
  match c.lineBreak? with
  | some (_, next) => next
  | none => c

/-- Passes what may stand between the last word of a line and its end: blanks and a comment.  Nothing
comes back when there is more on the line. -/
def endLine? (c : Cursor) : Option Cursor :=
  let c := c.skip (· == ' ')
  let c := if c.rest.head? == some '#' then c.skip fun x => !isBreak x else c
  if c.isAtLineEnd then some c.skipBreak else none

end Cursor
end Yaml
end ExprLang
