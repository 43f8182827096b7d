import ExprLang.Host.Object
import ExprLang.Text.Pieces

/-!
# Contents of a TOML text

A content is a scalar, an array or a table.  While a text is read, one place of the root table is
filled in: `Place` is that place together with what lies around it, so that it can be left again.

A name may lead to a place that holds no table.  What is refused there depends on what is asked of
the content, and `ReadError` tells the two.
-/

namespace ExprLang
namespace Toml

/-- The kinds of contents. -/
inductive Kind where
  | bool
  | integer
  | float
  | text
  | date
  | moment
  | clock
  | array
  | table
  /-- A table that was written between braces. -/
  | inlineTable
deriving DecidableEq, Repr

/-- The name that the host has for the contents of a kind. -/
def Kind.typeName : Kind → String
  | bool => "bool"
  | integer => "int"
  | float => "float"
  | text => "str"
  | date => "datetime.date"
  | moment => "datetime.datetime"
  | clock => "datetime.time"
  | array => "list"
  | table => "dict"
  | inlineTable => "DynamicInlineTableDict"

/-- The kind as it counts among the items of an array: a date with a clock is a date. -/
def Kind.itemKind : Kind → Kind
  | moment => date
  | kind => kind

/-- What is asked of a content. -/
inductive Use where
  /-- What stands under a name. -/
  | lookUp
  /-- Whether there is anything under a name. -/
  | search
  /-- To hold something under a name. -/
  | write
  /-- To hold one more item. -/
  | append
deriving DecidableEq, Repr

/-- Why a text is not read. -/
inductive ReadError where
  | malformed
  /-- A sequence of contents or characters ends before one that must be there. -/
  | noItem
  /-- A text ends before a character that must be there. -/
  | noCharacter
  /-- Something is asked of a content that its kind does not do. -/
  | misused (kind : Kind) (use : Use)
  /-- A text over several lines stands under the empty name. -/
  | namelessText
  /-- An escape names a number that is far beyond all characters. -/
  | escapeTooLarge
  /-- The fraction of a second has too many digits. -/
  | fractionTooLarge
  /-- The offset of a date is a day or longer. -/
  | offsetTooLarge
deriving DecidableEq, Repr

/-- What is said when something is asked of a content that its kind does not do. -/
def misuseMessage (kind : Kind) : Use → String
  | .append => "'" ++ kind.typeName ++ "' object has no attribute 'append'"
  | .search => "argument of type '" ++ kind.typeName ++ "' is not iterable"
  | .lookUp =>
      match kind with
      | .text => "string indices must be integers, not 'str'"
      | .array => "list indices must be integers or slices, not str"
      | _ => "'" ++ kind.typeName ++ "' object is not subscriptable"
  | .write =>
      match kind with
      | .array => "list indices must be integers or slices, not str"
      | _ => "'" ++ kind.typeName ++ "' object does not support item assignment"

/-- The wording of an error. -/
def ReadError.message : ReadError → String
  | malformed => "malformed document"
  | noItem => "list index out of range"
  | noCharacter => "string index out of range"
  | misused kind use => misuseMessage kind use
  | namelessText => "cannot access local variable 'value' where it is not associated with a value"
  | escapeTooLarge => "Python int too large to convert to C int"
  | fractionTooLarge => "int too large to convert to float"
  | offsetTooLarge =>
      "offset must be a timedelta strictly between -timedelta(hours=24) and timedelta(hours=24)."

/-- What stands under a name or in an array. -/
inductive Content where
  | bool (b : Bool)
  | integer (n : Int)
  | float (f : Float)
  | text (cs : List Char)
  | date (d : Time.Date)
  /-- The reading of a clock on a date, and its offset in microseconds where one is told. -/
  | moment (reading : Time.Timestamp) (offset : Option Int)
  | clock (c : Time.Clock)
  | array (items : List Content)
  | table (braced : Bool) (entries : List (String × Content))
deriving Inhabited

/-- The entries of a table, in the order in which their names came. -/
abbrev Entries := List (String × Content)

/-- What stands under a name of a table. -/
def Entries.find? (entries : Entries) (name : String) : Option Content :=
  Assoc.find? (· == ·) name entries

/-- Writes a content under a name. -/
def Entries.put (entries : Entries) (name : String) (c : Content) : Entries :=
  Assoc.put (· == ·) name c entries

namespace Content

/-- A table that holds nothing yet. -/
def emptyTable : Content := table false []

/-- The kind of a content. -/
def kind : Content → Kind
  | bool _ => .bool
  | integer _ => .integer
  | float _ => .float
  | text _ => .text
  | date _ => .date
  | moment _ _ => .moment
  | clock _ => .clock
  | array _ => .array
  | table true _ => .inlineTable
  | table false _ => .table

/-- Why a content that is no table cannot be entered by a name.  A text is searched for the name. -/
def refusal (name : String) : Content → ReadError
  | text cs => .misused .text (if Text.occurs name.toList cs then .lookUp else .write)
  | array _ => .misused .array .write
  | c => .misused c.kind .search

/-- An array with one more item. -/
def append : Content → Content → Except ReadError Content
  | array items, item => .ok (array (items ++ [item]))
  | c, _ => .error (.misused c.kind .append)

/-- Changes the table that names lead to; tables that are missing on the way are made. -/
def within {α : Type} (change : Content → Except ReadError (Content × α)) :
    List String → Content → Except ReadError (Content × α)
  | [], c => change c
  | name :: rest, table braced entries => do
      let (inner, a) ← within change rest ((Entries.find? entries name).getD emptyTable)
      pure (table braced (Entries.put entries name inner), a)
  | name :: _, c => .error (c.refusal name)

mutual

/-- The object of the host that holds a content.  Clocks become text. -/
def toHost : Content → Except ReadError HostObject
  | bool b => .ok (.bool b)
  | integer n => .ok (.int n)
  | float f => .ok (.float f)
  | text cs => .ok (.text (String.ofList cs))
  | date d => .ok (.date d)
  | moment reading none => .ok (.localTime reading)
  | moment reading (some offset) =>
      match Time.Timestamp.ofWall? reading.wall offset with
      | some t => .ok (.timestamp t)
      | none => .error .offsetTooLarge
  | clock c => .ok (.text c.text)
  | array items => do pure (.list (← toHostItems items))
  | table _ entries => do pure (.dict (← toHostEntries entries))

/-- The objects of a list of contents. -/
def toHostItems : List Content → Except ReadError (List HostObject)
  | [] => .ok []
  | c :: rest => do
      let a ← toHost c
      let more ← toHostItems rest
      pure (a :: more)

/-- The entries of a table as those of a dictionary. -/
def toHostEntries : List (String × Content) → Except ReadError (List (HostObject × HostObject))
  | [] => .ok []
  | (name, c) :: rest => do
      let a ← toHost c
      let more ← toHostEntries rest
      pure ((.text name, a) :: more)

end

end Content

/-! ### Places -/

/-- What lies around a place, one step up. -/
inductive Frame where
  /-- The table that holds the place under a name. -/
  | member (braced : Bool) (entries : Entries) (name : String)
  /-- The items before the place, which is the last of an array. -/
  | last (before : List Content)
  /-- The text that the place is the last character of. -/
  | character (cs : List Char)

/-- The content that holds a content in a frame; a text does not change. -/
def Frame.fill : Frame → Content → Content
  | member braced entries name, c => .table braced (entries.put name c)
  | last before, c => .array (before ++ [c])
  | character cs, _ => .text cs

/-- A content, and what lies around it, the nearest first. -/
structure Place where
  focus : Content
  around : List Frame

namespace Place

/-- The root table before anything is read. -/
def start : Place := ⟨.emptyTable, []⟩

/-- The root that a place belongs to. -/
def root (p : Place) : Content :=
  p.around.foldl (fun c frame => frame.fill c) p.focus

/-- The place at the root. -/
def leave (p : Place) : Place := ⟨p.root, []⟩

/-- The last item of an array or the last character of a text; at a table the place is kept. -/
def toLast (p : Place) : Except ReadError Place :=
  match p.focus with
  | .table _ _ => .ok p
  | .array items =>
      match items.getLast? with
      | some c => .ok ⟨c, .last items.dropLast :: p.around⟩
      | none => .error .noItem
  | .text cs =>
      match cs.getLast? with
      | some c => .ok ⟨.text [c], .character cs :: p.around⟩
      | none => .error .noCharacter
  | c => .error (.misused c.kind .lookUp)

end Place
end Toml
end ExprLang
