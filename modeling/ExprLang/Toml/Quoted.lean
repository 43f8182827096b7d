import ExprLang.Number.Decimal
import ExprLang.Toml.Lines

/-!
# Quotes in a TOML text

`quotePieces` cuts a line at its quotes, so that what lies outside of them can be searched, and
`decode` reads a text in quotes.
-/

namespace ExprLang
namespace Toml

/-! ### What lies outside of quotes -/

/-- Joins pieces between apostrophes with pieces between double quotes until every apostrophe has
its partner. -/
def closeApostrophes : List (List Char) → List (List Char) → List (List Char) × List (List Char)
  | singles, [] => (singles, [])
  | singles, d :: rest =>
      if singles.length % 2 = 1 then (singles, d :: rest)
      else
        let last := singles.getLastD [] ++ '"' :: d
        closeApostrophes (singles.dropLast ++ Text.pieces ['\''] last) rest

/-- Pieces between double quotes, the first of them cut at its apostrophes too. -/
def openFirst : List (List Char) → List (List Char)
  | [] => []
  | d :: rest => Text.pieces ['\''] d ++ rest

/-- The pieces of a line between its quotes: by turns outside and inside. -/
def quotePieces (line : List Char) : List (List Char) :=
  match Text.pieces ['"'] line with
  | first :: second :: rest =>
      if first.contains '\'' then
        let (singles, rest) := closeApostrophes (Text.pieces ['\''] first) (second :: rest)
        singles ++ openFirst rest
      else openFirst (first :: second :: rest)
  | ps => openFirst ps

/-- How often a mark occurs before it occurs outside of quotes. -/
def quotedMarks (mark : List Char) (quoted : Bool) : List (List Char) → Nat
  | [] => 0
  | p :: rest =>
      if !quoted && Text.occurs mark p then 0
      else Text.occurrences mark p + quotedMarks mark (!quoted) rest

/-- The number of the first mark in a line that stands outside of quotes, counted from one. -/
def markOutside (mark line : List Char) : Nat :=
  1 + quotedMarks mark false (quotePieces line)

/-! ### Texts in quotes -/

/-- What an escape of one letter stands for. -/
def letterEscape? : Char → Option Char
  | '0' => some '\x00'
  | 'b' => some '\x08'
  | 'f' => some '\x0c'
  | 'n' => some '\n'
  | 'r' => some '\r'
  | 't' => some '\t'
  | '"' => some '"'
  | _ => none

/-- A text without some characters at both ends. -/
def inside (count : Nat) (cs : List Char) : List Char :=
  ((cs.drop count).reverse.drop count).reverse

/-- Passes a piece between quotes: whether the text is closed after it, and how many quotes have come
side by side. -/
def passPiece (triple : Bool) (found : Bool × Nat) (piece : List Char) :
    Except ReadError (Bool × Nat) :=
  let (closed, count) := found
  if piece.isEmpty then .ok (if triple then (closed, count + 1) else (true, count))
  else if isEscaping piece.reverse then .ok found
  else if closed then .error .malformed
  else .ok (if !triple ∨ 1 < count then (true, count) else (false, 0))

/-- Refuses what follows the closing quotes of a text. -/
def checkClosed (quote : Char) (cs : List Char) : Except ReadError Unit := do
  let (triple, ps) := match Text.pieces [quote] cs with
    | [] :: [] :: rest => (true, rest)
    | ps => (false, ps)
  let _ ← ps.foldlM (passPiece triple) (false, 0)

/-- Refuses a backslash before a letter that is no escape. -/
def checkEscapes (cs : List Char) : Except ReadError Unit := do
  let _ ← ((Text.pieces ['\\'] cs).drop 1).foldlM (fun escaped piece =>
    match piece with
    | [] => .ok !escaped
    | c :: _ =>
        if (letterEscape? c).isNone && c != 'u' && c != 'U' && !escaped then
          .error ReadError.malformed
        else .ok false) false

/-- The character of an escape by number, and what follows its digits. -/
def takeCode (width : Nat) (cs : List Char) : Except ReadError (Char × List Char) := do
  let digits := (cs.take width).map Char.toLower
  if !digits.all Number.isHexDigit then throw .malformed
  match digits with
  | [] => throw .noCharacter
  | ['d'] => throw .noCharacter
  | 'd' :: second :: _ => if '7' < second then throw .malformed
  | _ => pure ()
  let code := Number.hexValue digits
  if 0x7FFFFFFF < code then throw .escapeTooLarge
  if 0x10FFFF < code then throw .malformed
  pure (Char.ofNat code, cs.drop width)

/-- Writes the characters that escapes by number stand for, except where the backslash is escaped. -/
def expandCodes (mark : List Char) (width : Nat) (cs : List Char) :
    Except ReadError (List Char) := do
  match Text.pieces mark cs with
  | [] => pure []
  | first :: rest =>
      let (written, _) ← rest.foldlM (fun (found : List Char × Bool) piece =>
        if found.2 then .ok (found.1 ++ mark ++ piece, isEscaping piece.reverse)
        else do
          let (c, after) ← takeCode width piece
          pure (found.1 ++ c :: after, false)) (first, isEscaping first.reverse)
      pure written

/-- Writes what the escapes of one letter stand for. -/
def unescape : List Char → Except ReadError (List Char)
  | '\\' :: c :: rest => do
      let more ← unescape rest
      match letterEscape? c with
      | some meant => pure (meant :: more)
      | none =>
          if c = '\\' then pure ('\\' :: more)
          else if c = 'u' ∨ c = 'U' then pure ('\\' :: c :: more)
          else throw .malformed
  | c :: rest => do pure (c :: (← unescape rest))
  | [] => .ok []

/-- Reads a text in quotes.  Between apostrophes nothing is escaped. -/
def decode (quote : Char) (cs : List Char) : Except ReadError (List Char) := do
  checkClosed quote (cs.drop 1)
  let cs ←
    if quote = '"' then do
      checkEscapes cs
      let cs ← expandCodes ['\\', 'u'] 4 cs
      let cs ← expandCodes ['\\', 'U'] 8 cs
      unescape cs
    else pure cs
  match cs with
  | _ :: second :: rest =>
      if second = quote ∧ (rest.isEmpty ∨ rest.head? = some second) then
        pure (inside 1 (inside 2 cs))
      else pure (inside 1 cs)
  | _ => pure (inside 1 cs)

end Toml
end ExprLang
