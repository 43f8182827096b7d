/-!
# Positions in a source text

An offset counts code points from the start of a text.  `lineCol` gives the line and column of an
offset, where lines end at newline characters.  `excerpt` shows the lines around a place, with a
caret under it; there every line separator of Unicode ends a line.
-/

namespace ExprLang
namespace Text

/-- A half-open range of offsets. -/
structure Span where
  start : Nat
  stop : Nat
deriving DecidableEq, Repr, Inhabited

/-- The length of the part after the last newline. -/
def lastLineLength (cs : List Char) : Nat :=
  (cs.reverse.takeWhile (· != '\n')).length

/-- The line and the column of an offset, both counted from one.  Offsets past the end continue
the last line. -/
def lineCol (source : List Char) (offset : Nat) : Nat × Nat :=
  let before := source.take offset
  (before.count '\n' + 1, lastLineLength before + (offset - before.length) + 1)

/-- Whether a character ends a line of an excerpt. -/
def isLineSeparator (c : Char) : Bool :=
  c == '\n' || c == '\r' || c == '\x0b' || c == '\x0c' || c == '\x1c' || c == '\x1d' ||
    c == '\x1e' || c == '\u0085' || c == '\u2028' || c == '\u2029'

/-- Splits a text at its line separators, a carriage return and newline counting as one.  The
separator at the very end opens no further line.  `line` holds the open line in reverse. -/
def splitLinesFrom : List Char → List Char → List (List Char)
  | line, [] => if line.isEmpty then [] else [line.reverse]
  | line, '\r' :: '\n' :: rest => line.reverse :: splitLinesFrom [] rest
  | line, c :: rest =>
      if isLineSeparator c then line.reverse :: splitLinesFrom [] rest
      else splitLinesFrom (c :: line) rest

/-- The lines of a text, without their separators. -/
def splitLines (source : List Char) : List (List Char) :=
  splitLinesFrom [] source

/-- A number at the right end of a field of the given width. -/
def padLeft (width n : Nat) : String :=
  let digits := Nat.repr n
  String.ofList (List.replicate (width - digits.length) ' ') ++ digits

/-- A line of blanks. -/
def blanks (n : Nat) : String :=
  String.ofList (List.replicate n ' ')

/-- The line with number `number` of an excerpt, and below it the caret where it belongs. -/
def excerptLine (width line : Nat) (col : Option Int) (number : Nat) (content : List Char) :
    List String :=
  let mark := if number = line then ">" else " "
  let shown := mark ++ " " ++ padLeft width number ++ " | " ++ String.ofList content
  match col with
  | some col =>
      if number = line then
        [shown, "  " ++ blanks width ++ " | " ++ blanks (col - 1).toNat ++ "^"]
      else
        [shown]
  | none => [shown]

/-- The lines within `radius` of `line`, numbered, with a caret under column `col`.  A line that
does not exist gives no text. -/
def excerpt (source : List Char) (line : Int) (col : Option Int) (radius : Int) : String :=
  let lines := splitLines source
  if line < 1 ∨ (lines.length : Int) < line then
    ""
  else
    let first := (max 1 (line - radius)).toNat
    let last := min (lines.length : Int) (line + radius)
    let width := (toString last).length
    let shown := (List.range' first (last + 1 - first).toNat).flatMap fun number =>
      excerptLine width line.toNat col number (lines.getD (number - 1) [])
    "\n".intercalate shown

/-- Writes every end of a line as one character. -/
def unifyBreaks : List Char → List Char
  | '\r' :: '\n' :: rest => '\n' :: unifyBreaks rest
  | '\r' :: rest => '\n' :: unifyBreaks rest
  | c :: rest => c :: unifyBreaks rest
  | [] => []

end Text
end ExprLang
