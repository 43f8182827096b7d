import ExprLang.Yaml.BlockScalar
import ExprLang.Yaml.Plain
import ExprLang.Yaml.Property
import ExprLang.Yaml.Quoted

/-!
# Cutting a YAML text into tokens

`Yaml.tokens` cuts a text into tokens.  Where the rest of it cannot be cut, the token `broken` ends
them: what comes before it is read first.
-/

namespace ExprLang
namespace Yaml
namespace Scan

/-- The column after that of the innermost block. -/
def indent (s : Scan) : Nat :=
  (s.blocks.head?.map (· + 1)).getD 0

/-- A plain scalar. -/
def plain (s : Scan) : Except ReadError Scan := do
  let s ← s.noteKey
  let (content, broken, c) := takePlain s.inFlow s.indent false s.cursor (s.cursor.rest.length + 1)
  pure { s.push (.scalar true content) with cursor := c, keyAllowed := broken }

/-- A quoted scalar. -/
def quoted (s : Scan) (double : Bool) : Except ReadError Scan :=
  s.pushWord do
    let (content, c) ← takeQuoted double (s.cursor.advance 1) (s.cursor.rest.length + 1)
    pure (.scalar false content, c)

/-- A scalar in block style. -/
def blockScalar (s : Scan) (folded : Bool) : Except ReadError Scan := do
  let s ← s.dropKey
  let (content, c) ← takeBlockScalar folded s.indent (s.cursor.advance 1)
  pure { s.push (.scalar false content) with cursor := c, keyAllowed := true }

/-- A name that is given to a node or taken from it. -/
def nodeName (s : Scan) (kind : List Char → Token) : Except ReadError Scan :=
  s.pushWord do
    let (name, c) ← takeNodeName (s.cursor.advance 1)
    pure (kind name, c)

/-- A directive. -/
def directive (s : Scan) : Except ReadError Scan := do
  let s ← s.leaveDocument
  let (d, c) ← takeDirective (s.cursor.advance 1)
  pure { s.push (.directive d) with cursor := c }

/-- The token at the cursor, where no blank stands. -/
def token (s : Scan) : Except ReadError Scan :=
  match s.cursor.rest with
  | [] => .error .malformed
  | c :: rest =>
      if s.cursor.column = 0 ∧ c = '%' then s.directive
      else if s.cursor.column = 0 ∧ isDocumentMark (c :: rest) then
        s.documentMark (if c = '-' then .documentStart else .documentEnd)
      else if c = '[' then s.openFlow .openList
      else if c = '{' then s.openFlow .openMap
      else if c = ']' then s.closeFlow .closeList
      else if c = '}' then s.closeFlow .closeMap
      else if c = ',' then s.comma
      else if c = '-' ∧ isBoundary rest then s.indicator .openBlockList .dash true
      else if c = '?' ∧ (s.inFlow ∨ isBoundary rest) then
        s.indicator .openBlockMap .key (!s.inFlow)
      else if c = ':' ∧ (s.inFlow ∨ isBoundary rest) then s.colon
      else if c = '*' then s.nodeName .alias
      else if c = '&' then s.nodeName .anchor
      else if c = '!' then s.pushWord (takeTag s.cursor)
      else if c = '|' ∧ !s.inFlow then s.blockScalar false
      else if c = '>' ∧ !s.inFlow then s.blockScalar true
      else if c = '\'' then s.quoted false
      else if c = '"' then s.quoted true
      else if "#|>%@`\t".toList.contains c then .error .malformed
      else s.plain

/-- Passes what has no meaning, closes the blocks that end there, and takes the next token; at the
end of the text every block is closed. -/
def step (s : Scan) : Except ReadError Scan := do
  let s := (← (s.skipBlank (s.cursor.rest.length + 1)).dropStale).closeLeft
  if s.cursor.rest.isEmpty then s.leaveDocument else s.token

/-- The tokens that are certain, after which the text is broken. -/
def breakOff (s : Scan) (error : ReadError) : List Token :=
  s.tokens.take s.certain ++ [.broken error]

/-- Cuts what is left into tokens, at most `fuel` of them. -/
def run (s : Scan) : Nat → List Token
  | 0 => s.breakOff .malformed
  | fuel + 1 =>
      match s.dropStale with
      | .error e => s.breakOff e
      | .ok s =>
          match s.step with
          | .error e => s.breakOff e
          | .ok next => if s.cursor.rest.isEmpty then next.tokens else run next fuel

end Scan

/-- Whether a character may stand in a text at all. -/
def isAllowed (c : Char) : Bool :=
  let n := c.toNat
  n = 9 || n = 10 || n = 13 || (32 ≤ n && n ≤ 126) || n = 0x85 || (0xA0 ≤ n && n ≤ 0xD7FF) ||
    (0xE000 ≤ n && n ≤ 0xFFFD) || (0x10000 ≤ n && n ≤ 0x10FFFF)

/-- The text without a mark of byte order at its front. -/
def dropOrderMark : List Char → List Char
  | '\uFEFF' :: rest => rest
  | cs => cs

/-- The tokens of a text. -/
def tokens (cs : List Char) : List Token :=
  if cs.all isAllowed then (Scan.start (dropOrderMark cs)).run (cs.length + 2)
  else [.broken .malformed]

end Yaml
end ExprLang
