import ExprLang.Toml.Number
import ExprLang.Toml.Quoted

/-!
# Contents and assignments

`Toml.value` reads a content, `Toml.assign` a line that writes one under a name.  An array and a table
between braces are cut at their commas first; a piece that is not whole, by what it begins and ends
with, is joined with the next.  A bracket or brace that is never closed is taken for closed.
-/

namespace ExprLang
namespace Toml

/-! ### Cutting -/

/-- The end of a line that has not ended yet: a text over several lines, under its name. -/
structure Pending where
  name : List Char
  text : List Char
  /-- Whether the next line goes on where this one ended. -/
  joined : Bool

/-- A line whose text goes on: a backslash at its end is dropped, else there is a break. -/
def Pending.ofText (name text : List Char) : Pending :=
  if isEscaping text.reverse then ⟨name, text.dropLast, true⟩ else ⟨name, text ++ ['\n'], false⟩

/-- Whether a piece begins and ends with the same character, which is not escaped at the end. -/
def isBounded (cs : List Char) : Bool :=
  cs.isEmpty || (cs.head? == cs.getLast? && !isEscaping (inside 1 cs).reverse)

/-- Whether a piece opens a long text and does not close it. -/
def isOpenLong (cs : List Char) : Bool :=
  match cs, cs.reverse with
  | a :: b :: c :: _, _ :: y :: z :: _ => b == a && c == a && y != a && z != a
  | _, _ => false

/-- Whether a piece of an array of texts is whole. -/
def isWholeText (cs : List Char) : Bool :=
  let piece := Text.strip cs
  isBounded piece && !isOpenLong piece

/-- Joins pieces of an array of texts with the next ones until they are whole.  The last piece is
taken as it is, unless something was joined to it. -/
def wholeTexts (first : List Char) (joined : Bool) :
    List (List Char) → Except ReadError (List (List Char))
  | [] => if joined && !isWholeText first then .error .noItem else .ok [first]
  | next :: rest =>
      if isWholeText first then do pure (first :: (← wholeTexts next false rest))
      else wholeTexts (first ++ ',' :: next) true rest

mutual

/-- The tables between braces in an array, up to the last one that is closed.  `taken` is what has
been taken of a table, the nearest first. -/
def braceGroups (depth : Nat) (quoted : Bool) (taken : List Char) : List Char → List (List Char)
  | [] => []
  | c :: rest =>
      let quoted := if isQuote c then !quoted || isEscaping taken else quoted
      let depth := if !quoted && c == '{' then depth + 1 else depth
      if quoted || c != '}' then braceGroups depth quoted (c :: taken) rest
      else if 1 < depth then braceGroups (depth - 1) quoted (c :: taken) rest
      else (c :: taken).reverse :: nextGroup true depth rest

/-- Skips what stands between two tables: the character after the first, and then all before the
brace that opens the second. -/
def nextGroup (skip : Bool) (depth : Nat) : List Char → List (List Char)
  | [] => []
  | c :: rest =>
      if skip || c != '{' then nextGroup false depth rest
      else braceGroups depth false [c] rest

end

/-- The pieces of an array between the commas that stand outside of brackets. -/
def bracketPieces (depth : Int) (taken : List Char) : List Char → List (List Char)
  | [] => [taken.reverse]
  | c :: rest =>
      if c = ',' ∧ depth = 0 then taken.reverse :: bracketPieces depth [] rest
      else
        let depth := if c = '[' then depth + 1 else if c = ']' then depth - 1 else depth
        bracketPieces depth (c :: taken) rest

/-- The pieces that the items of an array are read from. -/
def arrayPieces (cs : List Char) : Except ReadError (List (List Char)) :=
  let body := inside 1 (Text.strip cs)
  let stripped := Text.strip body
  let isNested := body.contains '[' && (Text.strip (body.takeWhile (· != '['))).isEmpty
  if isNested then .ok (bracketPieces 0 [] body)
  else
    match stripped.head?, body with
    | some '{', c :: rest => .ok (braceGroups (if c = '{' then 1 else 0) false [c] rest)
    | first, _ =>
        match Text.pieces [','] body with
        | [] => .ok []
        | piece :: rest =>
            if (first.map isQuote).getD false then wholeTexts piece false rest
            else .ok (piece :: rest)

/-- Whether what follows `=` in a piece of a table between braces is whole. -/
def isWholeValue (cs : List Char) : Bool :=
  let first := cs.headD ' '
  let last := cs.getLastD ' '
  (first == last && isQuote first) || first == '-' || first.isDigit ||
    cs == "true".toList || cs == "false".toList ||
    (first == '[' && last == ']') || (first == '{' && last == '}')

/-- Whether a piece of a table between braces is whole; it must have a mark and something after it. -/
def isWholeMember (cs : List Char) : Except ReadError Bool :=
  if !cs.contains '=' then .error .malformed
  else
    let content := Text.strip ((cs.dropWhile (· != '=')).drop 1)
    if content.isEmpty then .error .noCharacter else .ok (isWholeValue content)

/-- Joins pieces of a table between braces with the next ones until they are whole. -/
def wholeMembers (first : List Char) :
    List (List Char) → Except ReadError (List (List Char))
  | [] => do if ← isWholeMember first then pure [first] else throw .malformed
  | next :: rest => do
      if ← isWholeMember first then pure (first :: (← wholeMembers next rest))
      else wholeMembers (first ++ ',' :: next) rest

/-- The pieces that the members of a table between braces are read from. -/
def memberPieces (cs : List Char) : Except ReadError (List (List Char)) :=
  match Text.pieces [','] (inside 1 cs) with
  | [] => .ok []
  | [piece] => if (Text.strip piece).isEmpty then .ok [] else wholeMembers piece []
  | piece :: rest => wholeMembers piece rest

/-! ### Assignments -/

/-- Whether what follows `=` may begin a content; a number or a date must be whole then. -/
def mayBegin (cs : List Char) : Except ReadError Bool :=
  match cs with
  | [] => .ok true
  | c :: _ =>
      let word := Text.strip cs
      if [' ', '\t', '\'', '"', '[', '{'].contains c then .ok true
      else if word = "true".toList ∨ word = "false".toList then .ok true
      else if (Number.readFloat? cs).isSome then .ok true
      else do pure ((← readDate cs).isSome || (clockAt? cs).isSome)

/-- A line at one of its marks `=`: the name, the content, and whether a number in it would be
spelled strictly. -/
structure Split where
  name : List Char
  content : List Char
  strict : Bool

/-- Cuts a line at the mark of some number, or at the last one. -/
def cutLine (ps : List (List Char)) (number : Nat) : List Char × List Char :=
  let number := min number (ps.length - 1)
  (Text.join ['='] (ps.take number), Text.join ['='] (ps.drop number))

/-- Finds the mark that a content may follow, from the mark of some number on. -/
def findMark (ps : List (List Char)) (content : List Char) (strict : Bool) :
    Nat → Nat → Except ReadError Split
  | 0, _ => .error .malformed
  | fuel + 1, number => do
      if ← mayBegin content then pure ⟨(cutLine ps number).1, content, strict⟩
      else
        let next := (cutLine ps (number + 1)).2
        if next = content then throw .malformed
        findMark ps next (strict && isStrict next) fuel (number + 1)

/-- Cuts a line into name and content.  A number directly after the mark loses its underscores. -/
def splitLine (line : List Char) : Except ReadError Split := do
  let ps := Text.pieces ['='] line
  let number := markOutside ['='] line
  let content := (cutLine ps number).2
  let plain :=
    if (content.head?.map Char.isDigit).getD false then content.filter (· != '_') else content
  let split ← findMark ps plain (isStrict content) (ps.length + 2) number
  pure ⟨Text.strip split.name, Text.strip split.content, split.strict⟩

/-- The parts of a name with points, by turns outside and inside quotes. -/
def nameParts (quoted : Bool) : List (List Char) → List (List Char)
  | [] => []
  | p :: rest =>
      (if quoted then [p] else (Text.pieces ['.'] p).map Text.strip) ++ nameParts (!quoted) rest

/-- The names that a name leads through, and the last.  Empty parts are left out. -/
def splitName (name : List Char) : Except ReadError (List String × List Char) :=
  if name.contains '.' then
    let parts :=
      if name.any isQuote then nameParts false (quotePieces name) else Text.pieces ['.'] name
    match parts.reverse.dropWhile List.isEmpty with
    | [] => .error .noItem
    | last :: before =>
        let path := (before.reverse.filter fun part => !part.isEmpty).map String.ofList
        .ok (path, Text.strip last)
  else
    match name with
    | [] => .error .noCharacter
    | first :: _ =>
        if isQuote first ∧ name.getLast? = some first then .ok ([], inside 1 name)
        else .ok ([], name)

/-- The last piece of an array of texts that begins with a quote, and what follows it.  `last` is
what has been joined of it, and the pieces before it come the nearest first. -/
def lastText (last : List Char) : List (List Char) → Except ReadError (List Char)
  | [] => .ok last
  | piece :: before =>
      match last with
      | [] => .error .noCharacter
      | c :: _ => if isQuote c then .ok last else lastText (piece ++ ',' :: last) before

/-- Whether a text opens with three quotes and does not close with them. -/
def opensTriple (cs : List Char) : Except ReadError Bool :=
  match cs with
  | [] => .error .noCharacter
  | q :: rest =>
      if !isQuote q then .ok false
      else
        match rest with
        | [] => .error .noCharacter
        | second :: rest =>
            if second ≠ q then .ok false
            else
              match rest with
              | [] => .error .noCharacter
              | third :: _ =>
                  .ok (third == q && !(5 < cs.length && (cs.reverse.take 3).all (· == q)))

/-- Whether a content opens a long text that goes on after the line.  Of an array of texts the last
one counts. -/
def opensLong (cs : List Char) : Except ReadError Bool := do
  let inArray := cs.head? = some '[' && cs.getLast? != some ']' &&
    ((Text.strip (inside 1 cs)).head?.map isQuote).getD false
  if cs.length < 3 then pure false
  else if inArray then
    match (Text.pieces [','] (Text.strip (cs.drop 1))).reverse with
    | [] => pure false
    | last :: before => opensTriple (← lastText last before)
  else opensTriple cs

/-! ### Contents -/

/-- Adds an item to an array, whose items are of one kind. -/
def addItem (items : List Content) (c : Content) : Except ReadError (List Content) :=
  match items.head? with
  | none => .ok [c]
  | some first =>
      if first.kind.itemKind = c.kind.itemKind then .ok (items ++ [c]) else .error .malformed

/-- Writes a content under a name that is still free. -/
def addMember (name : List Char) (c : Content) : Content → Except ReadError Content
  | .table braced entries =>
      let name := String.ofList name
      if Assoc.has (· == ·) name entries then .error .malformed
      else .ok (.table braced (entries ++ [(name, c)]))
  | _ => .error .malformed

/-- Sees to it that a name is still free and that a text over several lines can stand under it. -/
def checkFree (name : List Char) (c : Content) : Except ReadError Unit := do
  let _ ← addMember name .emptyTable c
  if name.isEmpty then throw .namelessText

mutual

/-- Reads a content, nested at most `fuel` deep. -/
def value : Nat → Bool → List Char → Except ReadError Content
  | 0, _, _ => .error .malformed
  | fuel + 1, strict, cs => do
      let word := String.ofList (cs.map Char.toLower)
      if word = "true" ∨ word = "false" then
        if String.ofList cs = word then pure (.bool (word = "true")) else throw .malformed
      else
        match cs with
        | [] => throw .malformed
        | '[' :: _ => do
            let items ← (← arrayPieces cs).foldlM (fun items piece => do
              let piece := Text.strip piece
              if piece.isEmpty then pure items else addItem items (← value fuel true piece)) []
            pure (.array items)
        | '{' :: _ => members fuel (← memberPieces cs) (.table true [])
        | c :: _ =>
            if isQuote c then do pure (.text (← decode c cs))
            else
              match clockAt? cs with
              | some clock => if isClock clock then pure (.clock clock) else throw .malformed
              | none =>
                  match ← readDate cs with
                  | some found => pure found
                  | none =>
                      if !strict then throw .malformed
                      else
                        match readNumber? cs with
                        | some found => pure found
                        | none => throw .malformed

/-- Writes the members of a table between braces, up to one whose text goes on after the line. -/
def members : Nat → List (List Char) → Content → Except ReadError Content
  | 0, _, _ => .error .malformed
  | fuel + 1, ps, c => do
      let (c, _) ← ps.foldlM (fun (found : Content × Bool) piece =>
        if found.2 then .ok found
        else do
          let (c, pending) ← assign fuel piece found.1
          pure (c, pending.isSome)) (c, false)
      pure c

/-- Writes what a line assigns into a table, unless its text goes on after the line. -/
def assign : Nat → List Char → Content → Except ReadError (Content × Option Pending)
  | 0, _, _ => .error .malformed
  | fuel + 1, line, c => do
      let split ← splitLine line
      let (path, name) ← splitName split.name
      Content.within (fun c => do
        if ← opensLong split.content then
          checkFree name c
          pure (c, some (Pending.ofText name split.content))
        else
          let found ← value fuel split.strict split.content
          pure (← addMember name found c, none)) path c

end

end Toml
end ExprLang
