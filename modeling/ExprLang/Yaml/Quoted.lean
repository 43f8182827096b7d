import ExprLang.Number.Decimal
import ExprLang.Yaml.Cursor
import ExprLang.Yaml.ReadError

/-!
# Scalars in quotes

Between apostrophes an apostrophe is written twice.  Between double quotes a backslash begins an
escape, and at the end of a line it joins the line to the next.
-/

namespace ExprLang
namespace Yaml

/-- What an escape of one letter stands for. -/
def letterEscape? : Char → Option Char
  | '0' => some '\x00'
  | 'a' => some '\x07'
  | 'b' => some '\x08'
  | 't' => some '\t'
  | '\t' => some '\t'
  | 'n' => some '\n'
  | 'v' => some '\x0b'
  | 'f' => some '\x0c'
  | 'r' => some '\r'
  | 'e' => some '\x1b'
  | ' ' => some ' '
  | '"' => some '"'
  | '\\' => some '\\'
  | '/' => some '/'
  | 'N' => some '\x85'
  | '_' => some '\xa0'
  | 'L' => some '\u2028'
  | 'P' => some '\u2029'
  | _ => none

/-- How many hexadecimal digits follow the letter of an escape. -/
def hexWidth? : Char → Option Nat
  | 'x' => some 2
  | 'u' => some 4
  | 'U' => some 8
  | _ => none

/-- The character of a number. -/
def codePoint (n : Nat) : Except ReadError Char :=
  if 0x7FFFFFFF < n then .error .escapeTooLarge
  else if 0x10FFFF < n then .error .noCodePoint
  else .ok (Char.ofNat n)

/-- Passes the breaks and blanks after a break inside quotes, and gives the breaks. -/
def skipQuotedBreaks (c : Cursor) : Nat → Except ReadError (List Char × Cursor)
  | 0 => .ok ([], c)
  | fuel + 1 =>
      if isDocumentMark c.rest then .error .malformed
      else
        let c := c.skip isGap
        match c.lineBreak? with
        | none => .ok ([], c)
        | some (b, c) => do
            let (breaks, c) ← skipQuotedBreaks c fuel
            pure (b :: breaks, c)

/-- The escape after a backslash: what it stands for, and where it ends. -/
def takeEscape (c : Cursor) : Except ReadError (List Char × Cursor) := do
  match c.rest with
  | [] => throw .malformed
  | letter :: digits =>
      match letterEscape? letter, hexWidth? letter with
      | some meant, _ => pure ([meant], c.advance 1)
      | none, some width =>
          let code := digits.take width
          if code.length < width ∨ !code.all Number.isHexDigit then throw .malformed
          pure ([← codePoint (Number.hexValue code)], c.advance (width + 1))
      | none, none =>
          match c.lineBreak? with
          | none => throw .malformed
          | some (_, next) => skipQuotedBreaks next next.rest.length

/-- The content of a quoted scalar after its opening quote, and where its closing quote ends. -/
def takeQuoted (double : Bool) (c : Cursor) : Nat → Except ReadError (List Char × Cursor)
  | 0 => .error .malformed
  | fuel + 1 =>
      let onwards (piece : List Char) (next : Cursor) : Except ReadError (List Char × Cursor) := do
        let (more, last) ← takeQuoted double next fuel
        pure (piece ++ more, last)
      match c.rest with
      | [] => .error .malformed
      | x :: rest =>
          if !double && x == '\'' then
            if rest.head? == some '\'' then onwards ['\''] (c.advance 2)
            else .ok ([], c.advance 1)
          else if double && x == '"' then .ok ([], c.advance 1)
          else if double && x == '\\' then do
            let (piece, next) ← takeEscape (c.advance 1)
            onwards piece next
          else if isGap x || isBreak x then
            let gap := c.rest.takeWhile isGap
            let next := c.advance gap.length
            match next.lineBreak? with
            | none => if next.rest.isEmpty then .error .malformed else onwards gap next
            | some (b, next) => do
                let (further, next) ← skipQuotedBreaks next next.rest.length
                onwards (foldBreaks b further) next
          else onwards [x] (c.advance 1)

end Yaml
end ExprLang
