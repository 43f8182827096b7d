import ExprLang.Text.Alphanumeric
import ExprLang.Text.Blank
import ExprLang.Toml.Content

/-!
# The lines of a TOML text

`Toml.lines` cuts a text into lines.  Comments become blanks, and so do the breaks inside arrays, so
that an array stands on one line.  The names in front of `=` are checked on the way, and a text in
quotes must be closed.

A quote counts as the third of three when the two characters before it are the same quote.  Before
the beginning of a text stands its end.
-/

namespace ExprLang
namespace Toml

/-- Which heading is open. -/
inductive Heading where
  | none
  | table
  | tables
deriving DecidableEq, Repr

/-- Which part of a line in front of `=` is open. -/
inductive NamePart where
  | none
  | inside
  | after
deriving DecidableEq, Repr

/-- How far a text has been passed. -/
structure Sweep where
  /-- The characters as they are kept, the nearest first. -/
  before : List Char
  /-- The quote that closes the text that is open. -/
  quote : Option Char
  /-- Whether that text may span lines. -/
  long : Bool
  /-- The brackets that are open. -/
  depth : Int
  heading : Heading
  /-- Whether nothing has come on the line yet. -/
  lineStart : Bool
  name : NamePart
  /-- Whether the name has a point. -/
  dotted : Bool
  comment : Bool

/-- Whether an odd number of backslashes stands at the front. -/
def isEscaping (cs : List Char) : Bool :=
  (cs.takeWhile (· == '\\')).length % 2 = 1

/-- Whether a character is a quote. -/
def isQuote (c : Char) : Bool :=
  c == '"' || c == '\''

namespace Sweep

/-- The beginning of a text. -/
def start : Sweep :=
  ⟨[], none, false, 0, .none, true, .none, false, false⟩

/-- Keeps a character. -/
def push (s : Sweep) (c : Char) : Sweep :=
  { s with before := c :: s.before }

/-- Whether headings, comments and arrays may begin. -/
def isFree (s : Sweep) : Bool :=
  s.quote.isNone && s.heading == .none

/-- Opens or closes a text in quotes. -/
def toggle (s : Sweep) (q : Char) (triple : Bool) : Sweep :=
  let opened := if triple then !s.long else s.quote.isNone
  { s with quote := if opened then some q else none, long := if triple then opened else s.long }

/-- What a quote does; `back` is what stands before it.  Of two double quotes side by side the second
is not escaped by what stands before the first. -/
def passQuote (s : Sweep) (c : Char) (back : List Char) : Sweep :=
  let triple := back.take 2 == [c, c]
  if c = '\'' ∧ s.quote ≠ some '"' then s.toggle c triple
  else if c = '"' ∧ s.quote ≠ some '\'' then
    let escaped :=
      if triple then isEscaping (back.drop 2)
      else back.head? != some c && isEscaping back
    if escaped then s else s.toggle c triple
  else s

/-- What a bracket does. -/
def passBracket (s : Sweep) (c : Char) (after : List Char) : Sweep :=
  if c = '[' ∧ s.isFree then
    if s.lineStart then
      { s with heading := if after.head? = some '[' then .tables else .table }
    else { s with depth := s.depth + 1 }
  else if c = ']' ∧ s.quote.isNone then
    match s.heading with
    | .table => { s with heading := .none }
    | .tables => if s.before.head? = some ']' then { s with heading := .none } else s
    | .none => { s with depth := s.depth - 1 }
  else s

/-- The end of a line.  After two quotes it is kept as a third one, and a quote before the two
becomes a blank: what opens a long text does not end its first line. -/
def passBreak (s : Sweep) : Except ReadError Sweep :=
  if s.quote.isSome ∨ s.long then
    if !s.long then .error .malformed
    else
      match s.before with
      | a :: b :: rest =>
          if isQuote a ∧ b = a then
            let rest := if rest.head? = some a then ' ' :: rest.drop 1 else rest
            .ok { s with before := a :: a :: b :: rest }
          else .ok (s.push '\n')
      | _ => .ok (s.push '\n')
  else if s.depth ≠ 0 then .ok (s.push ' ')
  else .ok { s.push '\n' with lineStart := true }

/-- A character that is no part of a name in front of `=`, unless it begins one. -/
def passPlain (s : Sweep) (c : Char) (after : List Char) : Except ReadError Sweep :=
  let s := if isQuote c then s.passQuote c (s.before ++ (c :: after).reverse ++ s.before) else s
  if c = '#' ∧ s.isFree then .ok { s.push ' ' with comment := true }
  else
    let s := s.passBracket c after
    if c = '\n' then s.passBreak
    else if s.lineStart ∧ c ≠ ' ' ∧ c ≠ '\t' then
      let s : Sweep := { s.push c with lineStart := false }
      if s.heading ≠ .none then .ok s
      else if c = '=' then .error .malformed
      else .ok { s with name := .inside }
    else .ok (s.push c)

/-- The part of a name that the next character belongs to, after a blank or a point in it. -/
def partAfter (after : List Char) : Except ReadError NamePart :=
  match after with
  | [] => .error .noItem
  | c :: _ => .ok (if Text.isBlank c || c == '.' then .after else .inside)

/-- The character that ends a name. -/
def endName (s : Sweep) (c : Char) : Except ReadError Sweep :=
  if c = '=' then .ok { s.push c with name := .none, dotted := false } else .error .malformed

/-- A character of a name in front of `=`. -/
def passName (s : Sweep) (c : Char) (after : List Char) : Except ReadError Sweep :=
  if c = '\n' then .error .malformed
  else
    match s.quote, s.name with
    | some q, _ =>
        if c = q ∧ !isEscaping s.before then .ok { s.push c with quote := none, name := .after }
        else .ok (s.push c)
    | none, .inside =>
        if Text.isBlank c then .ok { s.push c with name := .after }
        else if c = '.' then .ok { s.push c with dotted := true }
        else if Text.isWordCharacter c || c == '-' then .ok (s.push c)
        else if s.dotted ∧ s.before.head? = some '.' ∧ isQuote c then
          .ok { s.push c with quote := some c }
        else s.endName c
    | none, _ =>
        if Text.isBlank c then
          if s.dotted then do pure { s.push c with name := ← partAfter after }
          else .ok (s.push c)
        else if c = '.' then do pure { s.push c with dotted := true, name := ← partAfter after }
        else s.endName c

/-- Passes a character; `after` is what follows it. -/
def pass (s : Sweep) (c : Char) (after : List Char) : Except ReadError Sweep :=
  if s.comment then
    if c = '\n' then { s with comment := false }.passPlain c after else .ok (s.push ' ')
  else if c = '\r' ∧ after.isEmpty then .error .noItem
  else if c = '\r' ∧ after.head? = some '\n' then .ok (s.push ' ')
  else if s.name = .none then s.passPlain c after
  else s.passName c after

/-- Passes a text. -/
def run (s : Sweep) : List Char → Except ReadError Sweep
  | [] => .ok s
  | c :: after => do run (← s.pass c after) after

end Sweep

/-- The lines of a text. -/
def lines (cs : List Char) : Except ReadError (List (List Char)) := do
  let s ← Sweep.start.run cs
  if s.name ≠ .none ∨ s.quote.isSome then throw .malformed
  pure (Text.pieces ['\n'] s.before.reverse)

end Toml
end ExprLang
