import ExprLang.Document
import ExprLang.Yaml.Cursor
import ExprLang.Yaml.Scalar

/-!
# Documents as YAML text

`Yaml.render` writes a document in blocks, or in one flow of brackets and braces.  A scalar is plain
where it would be read back as what it is, else it stands between apostrophes, or between double
quotes if something in it has to be escaped.  Lines are broken at blanks after eighty columns.
-/

namespace ExprLang
namespace Yaml

/-! ### Which style a scalar may have -/

/-- What a scalar allows. -/
structure Analysis where
  empty : Bool
  multiline : Bool
  blockPlain : Bool
  flowPlain : Bool
  singleQuoted : Bool
deriving DecidableEq, Repr

/-- Whether a character can stand in a text without an escape.  The last code point is left out. -/
def standsAsIs (c : Char) : Bool :=
  let n := c.toNat
  c == '\n' || (0x20 ≤ n && n ≤ 0x7E) ||
    ((n = 0x85 || (0xA0 ≤ n && n ≤ 0xD7FF) || (0xE000 ≤ n && n ≤ 0xFFFD) ||
      (0x10000 ≤ n && n < 0x10FFFF)) && n != 0xFEFF)

/-- Whether a character breaks the lines of a scalar. -/
def breaksLine (c : Char) : Bool :=
  c == '\n' || c == '\x85' || c == '\u2028' || c == '\u2029'

/-- Whether a plain scalar may not go on with these characters; `spaced` says whether a boundary
stands before them. -/
def stopsInside (flow spaced : Bool) : List Char → Bool
  | [] => false
  | c :: rest =>
      if c = ':' then flow || isBoundary rest
      else if c = '#' then spaced
      else flow && ",?[]{}".toList.contains c

/-- Whether a plain scalar may not begin with these characters. -/
def stopsAtStart (flow : Bool) : List Char → Bool
  | [] => false
  | c :: rest =>
      if "#,[]{}&*!|>'\"%@\x60".toList.contains c then true
      else if c = '?' ∨ c = ':' then flow || isBoundary rest
      else if c = '-' then isBoundary rest
      else false

/-- Whether a plain scalar may not hold these characters after its first; `last` is the character
before them. -/
def stopsAfter (flow : Bool) : Char → List Char → Bool
  | _, [] => false
  | last, c :: rest => stopsInside flow (isBoundary [last]) (c :: rest) || stopsAfter flow c rest

/-- Whether an indicator keeps a text from being plain. -/
def hasIndicator (flow : Bool) (cs : List Char) : Bool :=
  "---".toList.isPrefixOf cs || "...".toList.isPrefixOf cs || stopsAtStart flow cs ||
    (match cs with
      | [] => false
      | c :: rest => stopsAfter flow c rest)

/-- Whether two characters of the given classes follow one another. -/
def hasPair (first second : Char → Bool) : List Char → Bool
  | a :: b :: rest => (first a && second b) || hasPair first second (b :: rest)
  | _ => false

/-- What a text allows. -/
def analyse (cs : List Char) : Analysis :=
  if cs.isEmpty then ⟨true, false, true, false, true⟩
  else
    let isEdge (c : Option Char) : Bool := (c.map fun c => c == ' ' || breaksLine c).getD false
    let multiline := cs.any breaksLine
    let escaped := cs.any fun c => !standsAsIs c
    let spaceBeforeBreak := hasPair (· == ' ') breaksLine cs
    let spaceAfterBreak := hasPair breaksLine (· == ' ') cs
    let plain := !isEdge cs.head? && !isEdge cs.getLast? && !spaceAfterBreak && !spaceBeforeBreak &&
      !escaped && !multiline
    ⟨false, multiline, plain && !hasIndicator false cs, plain && !hasIndicator true cs,
      !spaceAfterBreak && !spaceBeforeBreak && !escaped⟩

/-! ### What has been written -/

/-- A text that is being written, and where it stands. -/
structure Page where
  /-- What has been written, the last character first. -/
  reversed : List Char
  column : Nat
  /-- Whether the last character leaves a gap before what comes next. -/
  gap : Bool
  /-- Whether only indentation and the marks of items stand on the line. -/
  fresh : Bool
  /-- Whether the document has to be closed by a mark. -/
  unclosed : Bool

namespace Page

/-- The column after which lines are broken. -/
def bestWidth : Nat := 80

/-- An empty page. -/
def blank : Page := ⟨[], 0, true, true, false⟩

/-- Writes characters of one line. -/
def put (p : Page) (cs : List Char) : Page :=
  { p with reversed := cs.reverse ++ p.reversed, column := p.column + cs.length }

/-- Writes a break. -/
def newline (p : Page) (break_ : Char) : Page :=
  { p with reversed := break_ :: p.reversed, column := 0, gap := true, fresh := true }

/-- Begins a line at a column, unless the line has just been begun. -/
def indentTo (p : Page) (column : Nat) : Page :=
  let p :=
    if !p.fresh || column < p.column || (p.column = column && !p.gap) then p.newline '\n' else p
  if p.column < column then
    { p.put (List.replicate (column - p.column) ' ') with gap := true }
  else p

/-- Writes a mark, after a blank where one is needed. -/
def mark (p : Page) (cs : List Char) (spaced gap fresh : Bool) : Page :=
  { p.put (if p.gap || !spaced then cs else ' ' :: cs) with
    gap := gap
    fresh := p.fresh && fresh
    unclosed := false }

/-- Whether the line is full. -/
def isFull (p : Page) : Bool :=
  bestWidth < p.column

end Page

/-! ### Scalars -/

/-- Where a node stands. -/
structure Place where
  /-- Whether it is the whole document. -/
  root : Bool
  /-- Whether it stands between brackets or braces. -/
  flow : Bool
  /-- Whether it is the name or the content of a member. -/
  inMap : Bool
  /-- Whether it is a name on the line of its content. -/
  key : Bool

/-- The kinds of characters that scalars are cut into runs by. -/
inductive RunKind where
  | blank
  | lineBreak
  | word
deriving DecidableEq

/-- The kind of a character. -/
def RunKind.of (c : Char) : RunKind :=
  if c = ' ' then blank else if breaksLine c then lineBreak else word

/-- A text in runs of one kind. -/
def runs (cs : List Char) : List (List Char) :=
  cs.splitBy fun a b => RunKind.of a = RunKind.of b

/-- Writes a run of blanks: one alone may become the end of a full line. -/
def putBlanks (split : Bool) (column : Nat) (p : Page) (run : List Char) : Page :=
  if run.length = 1 ∧ p.isFull ∧ split then p.indentTo column else p.put run

/-- Writes a plain scalar. -/
def putPlain (place : Place) (column : Nat) (p : Page) (cs : List Char) : Page :=
  let p := if place.root then { p with unclosed := true } else p
  if cs.isEmpty then p
  else
    let p := if p.gap then p else p.put [' ']
    (runs cs).foldl (fun p run =>
      match run.head?.map RunKind.of with
      | some .blank =>
          { putBlanks (!place.key) column p run with gap := false, fresh := false }
      | _ => p.put run) { p with gap := false, fresh := false }

/-- Writes a run of breaks between apostrophes: one break stands for a blank, so the first is
doubled. -/
def putBreaks (column : Nat) (p : Page) (run : List Char) : Page :=
  let p := if run.head? = some '\n' then p.newline '\n' else p
  (run.foldl Page.newline p).indentTo column

/-- Writes the runs of a scalar between apostrophes; blanks at its ends stay. -/
def putQuotedRuns (split : Bool) (column : Nat) (first : Bool) (p : Page) :
    List (List Char) → Page
  | [] => p
  | run :: rest =>
      let p :=
        match run.head?.map RunKind.of with
        | some .blank => putBlanks (split && !first && !rest.isEmpty) column p run
        | some .lineBreak => putBreaks column p run
        | _ => p.put (run.flatMap fun c => if c = '\'' then ['\'', '\''] else [c])
      putQuotedRuns split column false p rest

/-- Writes a scalar between apostrophes. -/
def putSingleQuoted (place : Place) (column : Nat) (p : Page) (cs : List Char) : Page :=
  let p := p.mark ['\''] true false false
  (putQuotedRuns (!place.key) column true p (runs cs)).mark ['\''] false false false

/-- An upper-case hexadecimal number of a fixed width. -/
def upperHex (width n : Nat) : List Char :=
  (Text.Quoted.hex width n).map Char.toUpper

/-- The letter of an escape that has one. -/
def escapeLetter? (c : Char) : Option Char :=
  if c = '\x00' then some '0'
  else if c = '\x07' then some 'a'
  else if c = '\x08' then some 'b'
  else if c = '\t' then some 't'
  else if c = '\n' then some 'n'
  else if c = '\x0b' then some 'v'
  else if c = '\x0c' then some 'f'
  else if c = '\r' then some 'r'
  else if c = '\x1b' then some 'e'
  else if c = '"' ∨ c = '\\' then some c
  else if c = '\x85' then some 'N'
  else if c = '\xa0' then some '_'
  else if c = '\u2028' then some 'L'
  else if c = '\u2029' then some 'P'
  else none

/-- Whether a character is escaped between double quotes. -/
def needsEscape (c : Char) : Bool :=
  let n := c.toNat
  c == '"' || c == '\\' || c == '\x85' || c == '\u2028' || c == '\u2029' || c == '\uFEFF' ||
    !((0x20 ≤ n && n ≤ 0x7E) || (0xA0 ≤ n && n ≤ 0xD7FF) || (0xE000 ≤ n && n ≤ 0xFFFD))

/-- The escape of a character. -/
def escapeOf (c : Char) : List Char :=
  match escapeLetter? c with
  | some letter => ['\\', letter]
  | none =>
      if c.toNat < 0x100 then '\\' :: 'x' :: upperHex 2 c.toNat
      else if c.toNat < 0x10000 then '\\' :: 'u' :: upperHex 4 c.toNat
      else '\\' :: 'U' :: upperHex 8 c.toNat

/-- Writes the characters between double quotes.  `word` holds, the last first, what is still to be
written; a full line is ended by a backslash before a blank or after an escape. -/
def putEscaped (split : Bool) (column : Nat) (first : Bool) (p : Page) (word : List Char) :
    List Char → Page
  | [] => p.put word.reverse
  | c :: rest =>
      let escaped := needsEscape c
      let p := if escaped then (p.put word.reverse).put (escapeOf c) else p
      let word := if escaped then [] else word
      let reached := p.column + word.length
      let full := (if escaped then Page.bestWidth + 1 else Page.bestWidth) < reached
      if split && !first && !rest.isEmpty && (c == ' ' || word.isEmpty) && full then
        let p := { (p.put (word.reverse ++ ['\\'])).indentTo column with gap := false, fresh := false }
        let next := if escaped then rest.head? else some c
        let p := if next == some ' ' then p.put ['\\'] else p
        putEscaped split column false p (if escaped then [] else [c]) rest
      else
        putEscaped split column false p (if escaped then [] else c :: word) rest

/-- Writes a scalar between double quotes. -/
def putDoubleQuoted (place : Place) (column : Nat) (p : Page) (cs : List Char) : Page :=
  let p := p.mark ['"'] true false false
  (putEscaped (!place.key) column true p [] cs).mark ['"'] false false false

/-- Writes a scalar; `plainReads` says whether it would be read back when plain. -/
def putScalar (place : Place) (column : Nat) (p : Page) (plainReads : Bool) (cs : List Char) :
    Page :=
  let a := analyse cs
  if plainReads && !(place.key && (a.empty || a.multiline)) &&
      (if place.flow then a.flowPlain else a.blockPlain) then
    putPlain place column p cs
  else if a.singleQuoted && !(place.key && a.multiline) then putSingleQuoted place column p cs
  else putDoubleQuoted place column p cs

/-- A float: always with a point before its exponent. -/
def floatText (f : Float) : List Char :=
  if Number.isUndefined f then ".nan".toList
  else if Number.isInfinite f then if Number.signBit f then "-.inf".toList else ".inf".toList
  else
    let cs := (Number.floatText f).toList
    if cs.contains '.' || !cs.contains 'e' then cs
    else cs.takeWhile (· != 'e') ++ ".0".toList ++ cs.dropWhile (· != 'e')

/-! ### Nodes -/

/-- Whether a name can stand on the line of its content. -/
def isSimpleName (name : List Char) : Bool :=
  let a := analyse name
  name.length + 5 < 128 && !a.empty && !a.multiline

/-- The column that the content of a node is indented to; without a column around it, flow content
is indented and a block is not. -/
def innerColumn (flow : Bool) : Option Nat → Nat
  | none => if flow then 2 else 0
  | some column => column + 2

/-- Writes a text, quoted if it would be read back as something else. -/
def putText (place : Place) (column : Nat) (p : Page) (s : String) : Page :=
  putScalar place column p (tagOf s.toList = .text) s.toList

/-- Writes a name and its colon; a name that cannot stand on the line of its content is marked. -/
def putName (flow : Bool) (column : Nat) (p : Page) (name : String) : Page :=
  if isSimpleName name.toList then
    (putText ⟨false, flow, true, true⟩ (column + 2) p name).mark [':'] false false false
  else
    let p := p.mark ['?'] true false (!flow)
    let p := putText ⟨false, flow, true, false⟩ (column + 2) p name
    if flow then
      (if p.isFull then p.indentTo column else p).mark [':'] true false false
    else (p.indentTo column).mark [':'] true false true

mutual

/-- Writes a document; `column` is the one of the collection around it. -/
def putNode (blocks : Bool) (place : Place) (column : Option Nat) (p : Page) : Document → Page
  | .null => putScalar place (innerColumn true column) p true "null".toList
  | .bool b =>
      putScalar place (innerColumn true column) p true (if b then "true" else "false").toList
  | .int n => putScalar place (innerColumn true column) p true (Number.intText n).toList
  | .float f => putScalar place (innerColumn true column) p true (floatText f)
  | .string s => putText place (innerColumn true column) p s
  | .array items =>
      if place.flow || !blocks || items.isEmpty then
        let inner := innerColumn true column
        (putFlowItems blocks inner true (p.mark ['['] true true false) items).mark [']'] false false
          false
      else
        let inner :=
          if place.inMap && !p.fresh then column.getD 0 else innerColumn false column
        putBlockItems blocks inner p items
  | .object members =>
      if place.flow || !blocks || members.isEmpty then
        let inner := innerColumn true column
        (putFlowMembers blocks inner true (p.mark ['{'] true true false) members).mark ['}'] false
          false false
      else
        putBlockMembers blocks (innerColumn false column) p members

/-- Writes the items of a list between brackets. -/
def putFlowItems (blocks : Bool) (column : Nat) (first : Bool) (p : Page) : List Document → Page
  | [] => p
  | d :: rest =>
      let p := if first then p else p.mark [','] false false false
      let p := if p.isFull then p.indentTo column else p
      putFlowItems blocks column false
        (putNode blocks ⟨false, true, false, false⟩ (some column) p d) rest

/-- Writes the members of a map between braces. -/
def putFlowMembers (blocks : Bool) (column : Nat) (first : Bool) (p : Page) :
    List (String × Document) → Page
  | [] => p
  | (name, d) :: rest =>
      let p := if first then p else p.mark [','] false false false
      let p := if p.isFull then p.indentTo column else p
      let p := putName true column p name
      putFlowMembers blocks column false
        (putNode blocks ⟨false, true, true, false⟩ (some column) p d) rest

/-- Writes the items of a list, each after a dash on a line of its own. -/
def putBlockItems (blocks : Bool) (column : Nat) (p : Page) : List Document → Page
  | [] => p
  | d :: rest =>
      let p := (p.indentTo column).mark ['-'] true false true
      putBlockItems blocks column
        (putNode blocks ⟨false, false, false, false⟩ (some column) p d) rest

/-- Writes the members of a map, each on a line of its own. -/
def putBlockMembers (blocks : Bool) (column : Nat) (p : Page) :
    List (String × Document) → Page
  | [] => p
  | (name, d) :: rest =>
      let p := putName false column (p.indentTo column) name
      putBlockMembers blocks column
        (putNode blocks ⟨false, false, true, false⟩ (some column) p d) rest

end

/-- Ends a document: its last line, and the mark that closes a plain scalar. -/
def finish (p : Page) : Page :=
  let unclosed := p.unclosed
  let p := p.indentTo 0
  if unclosed then (p.mark "...".toList true false false).indentTo 0 else p

/-- A document as YAML text, in blocks or in one flow. -/
def render (blocks : Bool) (d : Document) : String :=
  let p := putNode blocks ⟨true, false, false, false⟩ none .blank d.sorted
  String.ofList (finish p).reversed.reverse

end Yaml
end ExprLang
