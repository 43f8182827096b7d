import ExprLang.Document

/-!
# Documents as XML text

`Xml.render` writes a document as an element.  A member of an object becomes an element inside it,
an array one element for each item, a member whose name starts with `@` an attribute, the member
`#text` the text of the element, and the member `#comment` a comment.

The names of elements and attributes are checked only so far that they cannot end the tag that they
stand in.
-/

namespace ExprLang
namespace Xml

/-- What stands in a name that would break its tag. -/
inductive NameFlaw where
  /-- A mark of an instruction or of a declaration at the front. -/
  | declarationMark
  | bracket
  | slash
  | quote
  | equals
  | blank
deriving DecidableEq, Repr

/-- The wording of a flaw. -/
def NameFlaw.message : NameFlaw → String
  | declarationMark => "cannot start with \"?\" or \"!\""
  | bracket => "\"<\" or \">\" not allowed"
  | slash => "\"/\" not allowed"
  | quote => "quotes not allowed"
  | equals => "\"=\" not allowed"
  | blank => "whitespace not allowed"

/-- Why a document has no XML text. -/
inductive WriteError where
  /-- An array of several items would become several roots. -/
  | severalRoots
  /-- There is nothing but comments. -/
  | noRoot
  | elementName (flaw : NameFlaw)
  | attributeName (flaw : NameFlaw)
  /-- Two dashes would end a comment. -/
  | dashesInComment
  /-- A dash before the end of a comment would run into it. -/
  | dashEndsComment
deriving DecidableEq, Repr

/-- The wording of an error. -/
def WriteError.message : WriteError → String
  | severalRoots => "document with multiple roots"
  | noRoot => "Document must have exactly one root."
  | elementName flaw => "Invalid element name: " ++ flaw.message
  | attributeName flaw => "Invalid attribute name: " ++ flaw.message
  | dashesInComment => "Comment text cannot contain '--'"
  | dashEndsComment => "Comment text cannot end with '-'"

/-! ### Names and texts -/

/-- The first flaw of a name, in the order in which flaws are told. -/
def nameFlaw? (name : List Char) : Option NameFlaw :=
  if name.head? = some '?' ∨ name.head? = some '!' then some .declarationMark
  else if name.any fun c => c == '<' || c == '>' then some .bracket
  else if name.contains '/' then some .slash
  else if name.any fun c => c == '"' || c == '\'' then some .quote
  else if name.contains '=' then some .equals
  else if name.any Text.isBlank then some .blank
  else none

/-- Lets a name pass that has no flaw. -/
def checkName (error : NameFlaw → WriteError) (name : List Char) : Except WriteError Unit :=
  match nameFlaw? name with
  | some flaw => .error (error flaw)
  | none => .ok ()

/-- A document as the text of an element or an attribute: a truth value is written in lower case. -/
def textForm : Document → List Char
  | .bool b => (if b then "true" else "false").toList
  | d => d.shownText.toList

/-- Characters of the text of an element. -/
def escape (cs : List Char) : List Char :=
  cs.flatMap fun c =>
    if c = '&' then "&amp;".toList
    else if c = '<' then "&lt;".toList
    else if c = '>' then "&gt;".toList
    else [c]

/-- The content of an attribute between quotes: double ones, unless it holds double quotes and no
apostrophes. -/
def quote (cs : List Char) : List Char :=
  let body := (escape cs).flatMap fun c =>
    if c = '\n' then "&#10;".toList
    else if c = '\r' then "&#13;".toList
    else if c = '\t' then "&#9;".toList
    else [c]
  if !cs.contains '"' then '"' :: body ++ ['"']
  else if !cs.contains '\'' then '\'' :: body ++ ['\'']
  else '"' :: (body.flatMap fun c => if c = '"' then "&quot;".toList else [c]) ++ ['"']

/-! ### Comments -/

/-- Whether two dashes stand side by side. -/
def hasDashes : List Char → Bool
  | '-' :: '-' :: _ => true
  | _ :: rest => hasDashes rest
  | [] => false

/-- A comment, unless its text would end it too early. -/
def comment (cs : List Char) : Except WriteError (List Char) :=
  if hasDashes cs then .error .dashesInComment
  else if cs.getLast? = some '-' then .error .dashEndsComment
  else .ok ("<!--".toList ++ escape cs ++ "-->".toList)

/-- The texts of the comments that a member `#comment` stands for; nothing and an empty text give no
comment. -/
def commentTexts (d : Document) : List (List Char) :=
  let items := match d with
    | .array items => items
    | d => [d]
  (items.filterMap fun d =>
    match d with
    | .null => none
    | d => some (textForm d)).filter fun cs => !cs.isEmpty

/-! ### Attributes -/

/-- The attributes of an element, each in the place where its name came first. -/
abbrev Attributes := List (List Char × List Char)

/-- Adds an attribute under a name without a flaw. -/
def Attributes.add (found : Attributes) (label written : List Char) (d : Document) :
    Except WriteError Attributes := do
  checkName .attributeName label
  let content := match d with
    | .null => []
    | d => textForm d
  pure (Assoc.put (· == ·) written content found)

/-- The attributes among the members of an object.  An object under `@xmlns` declares namespaces:
the one without a name is the default. -/
def attributesOf (members : List (String × Document)) : Except WriteError Attributes :=
  members.foldlM (fun found (name, d) =>
    match name.toList, d with
    | ['@', 'x', 'm', 'l', 'n', 's'], .object spaces =>
        spaces.foldlM (fun found (space, d) =>
          let suffix := if space.isEmpty then [] else ':' :: space.toList
          Attributes.add found space.toList ("xmlns".toList ++ suffix) d) found
    | '@' :: label, d => Attributes.add found label label d
    | _, _ => .ok found) []

/-- The text of an element: that of its last member `#text`. -/
def textOf (members : List (String × Document)) : List Char :=
  match Assoc.find? (· == ·) "#text" members with
  | none => []
  | some .null => []
  | some d => textForm d

/-- Whether a member becomes an element or a comment: an empty array becomes nothing. -/
def isChild : String × Document → Bool
  | (_, .array []) => false
  | (name, _) => name != "#text" && name.toList.head? != some '@'

/-! ### Elements -/

/-- The opening tag of an element. -/
def openTag (name : List Char) (attributes : Attributes) : List Char :=
  '<' :: name ++
    (attributes.flatMap fun (label, content) => ' ' :: label ++ '=' :: quote content) ++
    ['>']

/-- What indents an element. -/
def indent (pretty : Bool) (depth : Nat) : List Char :=
  if pretty then List.replicate depth '\t' else []

/-- The end of a line, where lines are broken. -/
def newline (pretty : Bool) : List Char :=
  if pretty then ['\n'] else []

/-- An element that has attributes, elements and a text. -/
def element (pretty : Bool) (depth : Nat) (name : List Char) (attributes : Attributes)
    (broken : Bool) (inner text : List Char) : List Char :=
  indent pretty depth ++ openTag name attributes ++ newline (pretty && broken) ++ inner ++
    escape text ++ indent (pretty && broken) depth ++ '<' :: '/' :: name ++ ['>'] ++
    newline (pretty && depth != 0)

/-- The element of an object, from what its members are written as. -/
def objectElement (pretty : Bool) (depth : Nat) (name : List Char)
    (members : List (String × Document)) (inner : Except WriteError (List Char)) :
    Except WriteError (List Char) := do
  let attributes ← attributesOf members
  let inner ← inner
  pure (element pretty depth name attributes (members.any isChild) inner (textOf members))

/-- The element of something that is no object. -/
def textElement (pretty : Bool) (depth : Nat) (name : List Char) : Document → List Char
  | .null => element pretty depth name [] false [] []
  | d => element pretty depth name [] false [] (textForm d)

/-- The comments of a member, each on a line of its own where lines are broken. -/
def comments (pretty : Bool) (depth : Nat) (d : Document) : Except WriteError (List Char) := do
  let written ← (commentTexts d).mapM comment
  pure (written.flatMap fun cs => indent pretty depth ++ cs ++ newline pretty)

/-- A member under its name, from what it is written as if it is no comment. -/
def named (pretty : Bool) (depth : Nat) (name : String) (d : Document)
    (written : Except WriteError (List Char)) : Except WriteError (List Char) :=
  if name = "#comment" then comments pretty depth d
  else do
    checkName .elementName name.toList
    written

mutual

/-- The elements of a member: one, or one for each item of an array. -/
def member (pretty : Bool) (depth : Nat) (name : List Char) :
    Document → Except WriteError (List Char)
  | .array items => elements pretty depth name items
  | .object members =>
      objectElement pretty depth name members (children pretty (depth + 1) members)
  | d => .ok (textElement pretty depth name d)

/-- The elements of the items of an array; there is one root at most. -/
def elements (pretty : Bool) (depth : Nat) (name : List Char) :
    List Document → Except WriteError (List Char)
  | [] => .ok []
  | d :: rest => do
      let first ←
        match d with
        | .object members =>
            objectElement pretty depth name members (children pretty (depth + 1) members)
        | d => .ok (textElement pretty depth name d)
      if depth = 0 ∧ !rest.isEmpty then throw .severalRoots
      let more ← elements pretty depth name rest
      pure (first ++ more)

/-- What the members of an object are written as, attributes and text aside. -/
def children (pretty : Bool) (depth : Nat) :
    List (String × Document) → Except WriteError (List Char)
  | [] => .ok []
  | (name, d) :: rest => do
      let first ←
        if isChild (name, d) then
          named pretty depth name d (member pretty depth name.toList d)
        else pure []
      let more ← children pretty depth rest
      pure (first ++ more)

end

/-- A root element as an XML text. -/
def render (pretty : Bool) (root : String) (d : Document) : Except WriteError String := do
  let head := "<?xml version=\"1.0\" encoding=\"utf-8\"?>\n".toList
  let text ← named pretty 0 root d (member pretty 0 root.toList d)
  if root = "#comment" then throw .noRoot
  pure (String.ofList (head ++ text))

end Xml
end ExprLang
