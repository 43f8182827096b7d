import ExprLang.Yaml.Cursor
import ExprLang.Yaml.ReadError

/-!
# The tokens of YAML

Block collections are marked by their indentation: a token opens one where a line is indented
further than the collections around it, and a token closes it where the indentation ends.  A key
that is not marked as such is known to be one only when the colon after it is met; its mark is then
put in front of it.

`Scan` is how far a text has been cut into tokens, with a step for each token that has no content.
-/

namespace ExprLang
namespace Yaml

/-- What a line with a percent sign says. -/
inductive Directive where
  /-- The version of YAML that the document is written in, by its first number. -/
  | version (major : Nat)
  /-- What stands for the beginning of the names of tags. -/
  | tagHandle (handle start : List Char)
  | other
deriving DecidableEq, Repr

/-- The tokens of a YAML text. -/
inductive Token where
  | directive (d : Directive)
  | documentStart
  | documentEnd
  | openBlockList
  | openBlockMap
  | closeBlock
  | openList
  | closeList
  | openMap
  | closeMap
  | comma
  | dash
  | key
  | colon
  | anchor (name : List Char)
  | alias (name : List Char)
  /-- The tag of what follows: what stands for the beginning of its name, and the rest of it. -/
  | tag (handle : Option (List Char)) (suffix : List Char)
  | scalar (plain : Bool) (content : List Char)
  /-- What follows is not cut into tokens. -/
  | broken (error : ReadError)
deriving DecidableEq, Repr

/-- A place where a key may have begun: the number of tokens before it, whether there must be a key
because a block begins there, and where it stands. -/
structure KeyStart where
  token : Nat
  required : Bool
  cursor : Cursor

/-- How far a text has been cut into tokens. -/
structure Scan where
  cursor : Cursor
  /-- The tokens found so far. -/
  tokens : List Token
  /-- The columns of the open blocks, the innermost first. -/
  blocks : List Nat
  /-- For each open bracket or brace, the innermost first, and last for the block around them: where
  a key may have begun. -/
  keys : List (Option KeyStart)
  /-- Whether a key may begin here. -/
  keyAllowed : Bool

namespace Scan

/-- The beginning of a text. -/
def start (cs : List Char) : Scan :=
  ⟨Cursor.start cs, [], [], [none], true⟩

/-- Whether a bracket or brace is open. -/
def inFlow (s : Scan) : Bool :=
  s.keys.length > 1

/-- Whether a column lies further right than the innermost block. -/
def isDeeper (s : Scan) (column : Nat) : Bool :=
  match s.blocks with
  | [] => true
  | innermost :: _ => innermost < column

/-- Adds a token. -/
def push (s : Scan) (t : Token) : Scan :=
  { s with tokens := s.tokens ++ [t] }

/-- Adds a token of `count` characters. -/
def take (s : Scan) (t : Token) (count : Nat) : Scan :=
  { s.push t with cursor := s.cursor.advance count }

/-- Closes the blocks that lie further right than a column. -/
def closeBlocks (s : Scan) (isInside : Nat → Bool) : Scan :=
  let closed := s.blocks.takeWhile isInside
  { s with
    tokens := s.tokens ++ closed.map fun _ => Token.closeBlock
    blocks := s.blocks.dropWhile isInside }

/-- Closes the blocks that end at the column reached; within brackets none does. -/
def closeLeft (s : Scan) : Scan :=
  if s.inFlow then s else s.closeBlocks fun column => s.cursor.column < column

/-- Forgets where a key may have begun.  A key that must be there is missed. -/
def dropKey (s : Scan) : Except ReadError Scan :=
  match s.keys with
  | some k :: outer =>
      if k.required then .error .malformed else .ok { s with keys := none :: outer }
  | _ => .ok s

/-- Notes that a key may begin here. -/
def noteKey (s : Scan) : Except ReadError Scan :=
  if s.keyAllowed then do
    let required := !s.inFlow && s.blocks.head? == some s.cursor.column
    let s ← s.dropKey
    pure { s with keys := some ⟨s.tokens.length, required, s.cursor⟩ :: s.keys.drop 1 }
  else
    .ok s

/-- Whether a key that began somewhere would span lines or be longer than 1024 characters. -/
def isStale (s : Scan) (k : KeyStart) : Bool :=
  k.cursor.line != s.cursor.line || 1024 < s.cursor.index - k.cursor.index

/-- Forgets the keys that have become too long. -/
def dropStale (s : Scan) : Except ReadError Scan :=
  if s.keys.any fun k => (k.map fun k => s.isStale k && k.required).getD false then
    .error .malformed
  else
    .ok { s with keys := s.keys.map fun k => k.filter fun k => !s.isStale k }

/-- The number of the tokens that are certain: a token where a key may have begun is certain only
when it is known whether it is one. -/
def certain (s : Scan) : Nat :=
  ((s.keys.filterMap id).getLast?.map (·.token)).getD s.tokens.length

/-- Passes blanks, comments and the ends of lines.  On a new line a key may begin. -/
def skipBlank (s : Scan) : Nat → Scan
  | 0 => s
  | fuel + 1 =>
      let c := s.cursor.skip (· == ' ')
      let c := if c.rest.head? == some '#' then c.skip fun x => !isBreak x else c
      match c.lineBreak? with
      | none => { s with cursor := c }
      | some (_, c) =>
          skipBlank { s with cursor := c, keyAllowed := s.keyAllowed || !s.inFlow } fuel

/-- Opens a block at a column that lies further right than the blocks around it.  The token is put
after the first `place` tokens. -/
def openBlock (s : Scan) (t : Token) (column place : Nat) : Scan :=
  if !s.inFlow && s.isDeeper column then
    { s with tokens := s.tokens.insertIdx place t, blocks := column :: s.blocks }
  else s

/-- A bracket or brace that opens. -/
def openFlow (s : Scan) (t : Token) : Except ReadError Scan := do
  let s ← s.noteKey
  pure { s.take t 1 with keys := none :: s.keys, keyAllowed := true }

/-- A bracket or brace that closes; without one that is open it is refused. -/
def closeFlow (s : Scan) (t : Token) : Except ReadError Scan := do
  if !s.inFlow then throw .malformed
  let s ← s.dropKey
  pure { s.take t 1 with keys := s.keys.drop 1, keyAllowed := false }

/-- A comma. -/
def comma (s : Scan) : Except ReadError Scan := do
  let s ← s.dropKey
  pure { s.take .comma 1 with keyAllowed := true }

/-- A dash that begins an item, or a question mark that begins a key: within a block it stands where
a key may begin. -/
def indicator (s : Scan) (block t : Token) (allowed : Bool) : Except ReadError Scan := do
  if !s.inFlow && !s.keyAllowed then throw .malformed
  let s ← (s.openBlock block s.cursor.column s.tokens.length).dropKey
  pure { s.take t 1 with keyAllowed := allowed }

/-- A colon: what began on this line is a key, or else an empty key stands here. -/
def colon (s : Scan) : Except ReadError Scan :=
  match s.keys with
  | some k :: outer =>
      let s : Scan := { s with tokens := s.tokens.insertIdx k.token .key, keys := none :: outer }
      let s := s.openBlock .openBlockMap k.cursor.column k.token
      .ok { s.take .colon 1 with keyAllowed := false }
  | _ => s.indicator .openBlockMap .colon (!s.inFlow)

/-- Closes every block, where a document or what is said about one begins or ends. -/
def leaveDocument (s : Scan) : Except ReadError Scan := do
  let s ← (s.closeBlocks fun _ => true).dropKey
  pure { s with keyAllowed := false }

/-- A mark that begins or ends a document. -/
def documentMark (s : Scan) (t : Token) : Except ReadError Scan := do
  pure ((← s.leaveDocument).take t 3)

/-- Adds a token that ends at a place and that a key may begin with. -/
def pushWord (s : Scan) (word : Except ReadError (Token × Cursor)) : Except ReadError Scan := do
  let s ← s.noteKey
  let (t, c) ← word
  pure { s.push t with cursor := c, keyAllowed := false }

end Scan
end Yaml
end ExprLang
