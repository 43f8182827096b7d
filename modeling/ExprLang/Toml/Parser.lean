import ExprLang.Toml.Statement

/-!
# Reading TOML

`Toml.load` reads a TOML text into a dictionary.  A heading names the table that the lines below it
are written into.  A table that was only passed on the way to another one is implied: it may still
get a heading of its own, once.  Which tables are implied is kept by the last name alone.
-/

namespace ExprLang
namespace Toml

/-- How far a text has been read. -/
structure State where
  /-- The table that lines are written into. -/
  place : Place
  /-- The names of the implied tables. -/
  implied : List String
  /-- The text that goes on after its line. -/
  pending : Option Pending

/-! ### Headings -/

/-- Whether a character may stand in a name of a heading without quotes. -/
def isBareCharacter (c : Char) : Bool :=
  c.isAlphanum || c == '_' || c == '-'

/-- Whether a name that begins with a quote ends with it. -/
def isClosedName (cs : List Char) : Bool :=
  cs.length != 1 && cs.head? == cs.getLast?

/-- The names of a heading, from its pieces between points; `opened` is what has come of a name in
quotes. -/
def headingNames (opened : Option (List Char)) : List (List Char) → Except ReadError (List String)
  | [] => if opened.isSome then .error .malformed else .ok []
  | piece :: rest =>
      let piece := match opened with
        | some before => before ++ '.' :: piece
        | none => Text.strip piece
      if opened.isSome || (piece.head?.map isQuote).getD false then
        let name := Text.strip piece
        if isClosedName name then do
          pure (String.ofList (inside 1 name) :: (← headingNames none rest))
        else headingNames (some piece) rest
      else if !piece.isEmpty && piece.all isBareCharacter then do
        pure (String.ofList piece :: (← headingNames none rest))
      else .error .malformed

/-- Goes to the table that a heading names, where `several` tables of that name may follow one
another.  The implied tables change on the way. -/
def Place.enter (several : Bool) (implied : List String) :
    List String → Place → Except ReadError (Place × List String)
  | [], p => .ok (p, implied)
  | name :: rest, p => do
      if name.isEmpty then throw .malformed
      let isLast := rest.isEmpty
      let fresh := if isLast && several then .array [.emptyTable] else Content.emptyTable
      let goOn (p : Place) (braced : Bool) (entries : Entries) (c : Content)
          (implied : List String) : Except ReadError (Place × List String) := do
        let inner : Place := ⟨c, .member braced entries name :: p.around⟩
        Place.enter several implied rest (← if several then inner.toLast else pure inner)
      match p.focus with
      | .table braced entries =>
          match Entries.find? entries name with
          | none => goOn p braced entries fresh (if isLast then implied else name :: implied)
          | some found =>
              if !isLast then goOn p braced entries found implied
              else if implied.contains name then
                if several then throw .malformed
                else goOn p braced entries found (implied.erase name)
              else if several then
                goOn p braced entries (← found.append .emptyTable) implied
              else throw .malformed
      | _ => do
          let p ← p.toLast
          match p.focus with
          | .table braced entries =>
              goOn p braced entries ((Entries.find? entries name).getD fresh) implied
          | c => throw (c.refusal name)

/-- Reads a heading after its first bracket. -/
def State.readHeading (s : State) (cs : List Char) : Except ReadError State := do
  let several := cs.head? = some '['
  let cs := if several then cs.drop 1 else cs
  let mark := if several then [']', ']'] else [']']
  if !several && cs.isEmpty then throw .malformed
  let ps := Text.pieces mark cs
  let number := markOutside mark cs
  if ps.length ≤ number ∨ !(Text.strip (Text.join mark (ps.drop number))).isEmpty then
    throw .malformed
  let names ← headingNames none (Text.pieces ['.'] (Text.join mark (ps.take number)))
  let (place, implied) ← s.place.leave.enter several s.implied names
  pure { s with place := place, implied := implied }

/-! ### Lines -/

/-- Whether a line closes a long text or an array that holds one; `text` ends with the line. -/
def closes (text line : List Char) : Except ReadError Bool :=
  match text with
  | '[' :: _ =>
      match line.getLast? with
      | none => .error .noCharacter
      | some c => .ok (c == ']')
  | q :: _ => .ok (2 < line.length && (line.reverse.take 3).all (· == q))
  | [] => .ok false

/-- Reads a further line of a text that goes on. -/
def State.goOn (s : State) (p : Pending) (line : List Char) : Except ReadError State := do
  let line := if p.joined || !p.text.contains '\n' then Text.strip line else line
  if line.isEmpty && p.joined then pure s
  else
    let text := p.text ++ line
    if ← closes text line then
      let found ← value (text.length + 1) true text
      match s.place.focus with
      | .table braced entries =>
          let filled := Content.table braced (Entries.put entries (String.ofList p.name) found)
          pure { s with place := { s.place with focus := filled }, pending := none }
      | _ => throw .malformed
    else pure { s with pending := some (Pending.ofText p.name text) }

/-- Reads a line.  A line without a mark is passed over. -/
def State.readLine (s : State) (line : List Char) : Except ReadError State :=
  match s.pending with
  | some p => s.goOn p line
  | none =>
      let line := Text.strip line
      match line with
      | [] => .ok s
      | '[' :: rest => s.readHeading rest
      | '{' :: _ =>
          if line.getLast? ≠ some '}' then .error .malformed
          else do
            let filled ← members (line.length + 2) (← memberPieces line) s.place.focus
            pure { s with place := { s.place with focus := filled } }
      | _ =>
          if line.contains '=' then do
            let (filled, pending) ← assign (line.length + 2) line s.place.focus
            pure { s with place := { s.place with focus := filled }, pending := pending }
          else .ok s

/-- Reads a TOML text. -/
def load (text : String) : Except ReadError HostObject := do
  let s ← (← lines text.toList).foldlM State.readLine ⟨.start, [], none⟩
  s.place.root.toHost

end Toml
end ExprLang
