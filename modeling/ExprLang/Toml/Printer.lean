import ExprLang.Document
import ExprLang.Text.Pieces

/-!
# Documents as TOML text

`Toml.render` writes an object as TOML: the members that are no objects first, then the objects as
sections, level after level, in the order in which they stand.  What is null is left out.
-/

namespace ExprLang
namespace Toml

/-- Why a document has no TOML text. -/
inductive WriteError where
  /-- An item of an array that also holds objects is no object. -/
  | noTable (item : Document)
  /-- A text with a character that is escaped by its number cannot be written; the kind of sequence
  that ran out is told. -/
  | unwritable (sequence : String)

/-- The wording of an error. -/
def WriteError.message : WriteError → String
  | noTable (.string _) => "string indices must be integers, not 'str'"
  | noTable (.array _) => "list indices must be integers or slices, not str"
  | noTable item => "'" ++ item.typeName ++ "' object is not iterable"
  | unwritable sequence => sequence ++ " index out of range"

/-! ### Texts -/

/-- A text between its outer quotes, as messages show it, but ready for double quotes: an apostrophe
is not escaped and a double quote is. -/
def shown (cs : List Char) : List Char :=
  let quote := Text.Quoted.quoteFor cs
  cs.flatMap fun c =>
    if c = '\'' then ['\'']
    else if c = '"' ∧ quote = '\'' then ['\\', '"']
    else Text.Quoted.escape Text.isPrintable quote c

/-- Writes every pair of backslashes as one. -/
def halveBackslashes : List Char → List Char
  | '\\' :: '\\' :: rest => '\\' :: halveBackslashes rest
  | c :: rest => c :: halveBackslashes rest
  | [] => []

/-- What joins a piece to the next: `u00` after an even number of backslashes, not counting one that
begins the piece, else `x`. -/
def joint (piece : List Char) : List Char :=
  let count := (piece.reverse.takeWhile (· == '\\')).length
  let counted := if count = piece.length then count - 1 else count
  if count = 0 ∨ counted % 2 = 1 then ['x'] else ['u', '0', '0']

/-- Joins the pieces of a text again. -/
def joinPieces : Nat → List (List Char) → Except WriteError (List Char)
  | _, [] => .ok []
  | _, [piece] => .ok piece
  | 0, _ => .ok []
  | fuel + 1, first :: second :: rest =>
      let (head, tail) := if first.isEmpty then (second, rest) else (first, second :: rest)
      let head := halveBackslashes head
      if head.isEmpty then .error (.unwritable "string")
      else
        match tail with
        | [] => .error (.unwritable "list")
        | next :: rest => joinPieces fuel ((head ++ joint head ++ next) :: rest)

/-- A text between double quotes. -/
def quote (s : String) : Except WriteError (List Char) := do
  let pieces := Text.pieces ['\\', 'x'] (shown s.toList)
  let body ← joinPieces pieces.length pieces
  pure ('"' :: body ++ ['"'])

/-- Whether a character may stand in a name without quotes. -/
def isBare (c : Char) : Bool :=
  c.isAlphanum || c == '_' || c == '-'

/-- A name, quoted unless it is bare; a break at the end of a bare name does not count. -/
def nameText (name : String) : Except WriteError (List Char) :=
  let cs := name.toList
  let bare := if cs.getLast? = some '\n' then cs.dropLast else cs
  if !bare.isEmpty && bare.all isBare then .ok cs else quote name

/-- A float: an exponent of one digit is not padded. -/
def floatText (f : Float) : List Char :=
  let cs := (Number.floatText f).toList
  let tail := cs.dropWhile (· != 'e')
  cs.takeWhile (· != 'e') ++
    (match tail with
      | 'e' :: sign :: '0' :: digits => 'e' :: sign :: digits
      | _ => tail)

/-! ### Contents -/

mutual

/-- The content of a member that is no object, or an item of an array: nothing is written by its
name, and an object as the array of its names. -/
def content : Document → Except WriteError (List Char)
  | .null => .ok "\"None\"".toList
  | .bool b => .ok (if b then "true" else "false").toList
  | .int n => .ok (Number.intText n).toList
  | .float f => .ok (floatText f)
  | .string s => quote s
  | .array items => do pure ('[' :: (← contents items) ++ [']'])
  | .object members => do pure ('[' :: (← names members) ++ [']'])

/-- The items of an array, each after a blank and before a comma. -/
def contents : List Document → Except WriteError (List Char)
  | [] => .ok []
  | d :: rest => do
      let item ← content d
      let more ← contents rest
      pure (' ' :: item ++ ',' :: more)

/-- The names of members as items of an array. -/
def names : List (String × Document) → Except WriteError (List Char)
  | [] => .ok []
  | (name, _) :: rest => do
      let item ← quote name
      let more ← names rest
      pure (' ' :: item ++ ',' :: more)

end

/-! ### Sections -/

/-- What the members of a section come to: lines, arrays of objects under headings of their own, and
the objects that become sections below it, each under its written name. -/
structure Section where
  lines : List Char
  tables : List Char
  below : List (List Char × List (String × Document))

/-- What is written in a section. -/
def Section.text (s : Section) : List Char :=
  s.lines ++ s.tables

/-- Whether an array holds an object. -/
def holdsObject (items : List Document) : Bool :=
  items.any fun d =>
    match d with
    | .object _ => true
    | _ => false

/-- The members of an item of an array of objects; an empty text or array passes for an object.  Of
one that is not empty the first character or item is still taken for a name. -/
def membersOf : Document → Except WriteError (List (String × Document))
  | .object members => .ok members
  | .string s =>
      match s.toList with
      | [] => .ok []
      | c :: _ => do
          let _ ← nameText (String.ofList [c])
          throw (.noTable (.string s))
  | .array items =>
      match items with
      | [] => .ok []
      | d :: _ => do
          let _ ← nameText d.shownText
          throw (.noTable (.array items))
  | d => .error (.noTable d)

/-- The full name of something within a section. -/
def within (path name : List Char) : List Char :=
  if path.isEmpty then name else path ++ '.' :: name

/-- The sections below a section, by their full names. -/
def Section.subsections (s : Section) (path : List Char) :
    List (List Char × List (String × Document)) :=
  s.below.map fun (name, members) => (within path name, members)

/-- A heading. -/
def heading (path : List Char) : List Char :=
  '[' :: path ++ [']', '\n']

/-- A member on a line of its own. -/
def line (name : List Char) (d : Document) : Except WriteError (List Char) := do
  pure (name ++ [' ', '=', ' '] ++ (← content d) ++ ['\n'])

mutual

/-- Writes the members of a section, nested at most `fuel` deep. -/
def writeSection : Nat → List Char → List (String × Document) → Except WriteError Section
  | 0, _, _ => .ok ⟨[], [], []⟩
  | fuel + 1, path, members =>
      members.foldlM (fun found (name, d) => do
        let name ← nameText name
        match d with
        | .object inner => pure { found with below := found.below ++ [(name, inner)] }
        | .null => pure found
        | .array items =>
            if holdsObject items then
              pure { found with
                tables := found.tables ++ (← writeTables fuel (within path name) items) }
            else
              pure { found with lines := found.lines ++ (← line name d) }
        | d => pure { found with lines := found.lines ++ (← line name d) }) ⟨[], [], []⟩

/-- Writes the items of an array of objects, each under a heading. -/
def writeTables : Nat → List Char → List Document → Except WriteError (List Char)
  | 0, _, _ => .ok []
  | fuel + 1, path, items => do
      let texts ← items.mapM fun item => do
        let found ← writeSection fuel path (← membersOf item)
        let below ← writeBelow fuel (found.subsections path)
        let text :=
          if found.text.head? = some '[' then '\n' :: found.text else found.text ++ ['\n']
        pure ('[' :: '[' :: path ++ [']', ']', '\n'] ++ text ++ below)
      pure texts.flatten

/-- Writes the sections below an item of an array of objects, level after level. -/
def writeBelow : Nat → List (List Char × List (String × Document)) → Except WriteError (List Char)
  | 0, _ => .ok []
  | fuel + 1, sections =>
      if sections.isEmpty then .ok []
      else do
        let written ← sections.mapM fun (path, members) => do
          pure (path, ← writeSection fuel path members)
        let text := written.flatMap fun (path, found) =>
          if found.text.isEmpty then [] else heading path ++ found.text
        let deeper ← writeBelow fuel (written.flatMap fun (path, found) => found.subsections path)
        pure (text ++ deeper)

end

/-- Writes a section after a text, with an empty line between them.  A section that holds nothing
but sections has no heading. -/
def appendSection (text path : List Char) (found : Section) : List Char :=
  if found.text.isEmpty && !found.below.isEmpty then text
  else
    let gap := if text.isEmpty || "\n\n".toList.isSuffixOf text then [] else ['\n']
    text ++ gap ++ heading path ++ found.text

/-- Writes sections after a text, level after level, at most `fuel` levels. -/
def writeLevels (depth : Nat) :
    Nat → List Char → List (List Char × List (String × Document)) → Except WriteError (List Char)
  | 0, text, _ => .ok text
  | fuel + 1, text, sections =>
      if sections.isEmpty then .ok text
      else do
        let written ← sections.mapM fun (path, members) => do
          pure (path, ← writeSection depth path members)
        let text := written.foldl (fun text (path, found) => appendSection text path found) text
        writeLevels depth fuel text
          (written.flatMap fun (path, found) => found.subsections path)

/-- An object as TOML text. -/
def render (members : List (String × Document)) : Except WriteError String := do
  let depth := 2 * (Document.object members).depth + 2
  let found ← writeSection depth [] members
  pure (String.ofList (← writeLevels depth depth found.text (found.subsections [])))

end Toml
end ExprLang
