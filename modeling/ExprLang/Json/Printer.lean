import ExprLang.Document

/-!
# Documents as JSON text

`Json.render` writes a document on one line, or with a line for every item, each level indented by
two blanks.  The members of an object come in the order of their names.  Only quotes, backslashes
and control characters are escaped.
-/

namespace ExprLang
namespace Json

/-- Whether items have lines of their own. -/
inductive Style where
  | compact
  | indented
deriving DecidableEq, Repr

/-- What stands before an item of a level. -/
def Style.gap (style : Style) (level : Nat) : List Char :=
  match style with
  | compact => []
  | indented => '\n' :: List.replicate (2 * level) ' '

/-- What stands between the name and the content of a member. -/
def Style.colon : Style → List Char
  | compact => [':']
  | indented => [':', ' ']

/-- A character of a string. -/
def escape (c : Char) : List Char :=
  if c = '"' then ['\\', '"']
  else if c = '\\' then ['\\', '\\']
  else if c = '\n' then ['\\', 'n']
  else if c = '\r' then ['\\', 'r']
  else if c = '\t' then ['\\', 't']
  else if c = '\x08' then ['\\', 'b']
  else if c = '\x0c' then ['\\', 'f']
  else if c.toNat < 32 then '\\' :: 'u' :: Text.Quoted.hex 4 c.toNat
  else [c]

/-- A string between quotes. -/
def quote (s : String) : List Char :=
  '"' :: s.toList.flatMap escape ++ ['"']

/-- A float; one that is not finite is written as its name. -/
def floatText (f : Float) : List Char :=
  if Number.isUndefined f then "NaN".toList
  else if Number.isInfinite f then
    if Number.signBit f then "-Infinity".toList else "Infinity".toList
  else (Number.floatText f).toList

mutual

/-- A document whose members are in order, on a level. -/
def renderAt (style : Style) (level : Nat) : Document → List Char
  | .null => "null".toList
  | .bool b => if b then "true".toList else "false".toList
  | .int n => (Number.intText n).toList
  | .float f => floatText f
  | .string s => quote s
  | .array [] => ['[', ']']
  | .array (d :: rest) =>
      '[' :: style.gap (level + 1) ++ renderAt style (level + 1) d ++
        renderItems style (level + 1) rest ++ style.gap level ++ [']']
  | .object [] => ['{', '}']
  | .object ((name, d) :: rest) =>
      '{' :: style.gap (level + 1) ++ quote name ++ style.colon ++ renderAt style (level + 1) d ++
        renderMembers style (level + 1) rest ++ style.gap level ++ ['}']

/-- The items of an array after the first. -/
def renderItems (style : Style) (level : Nat) : List Document → List Char
  | [] => []
  | d :: rest =>
      ',' :: style.gap level ++ renderAt style level d ++ renderItems style level rest

/-- The members of an object after the first. -/
def renderMembers (style : Style) (level : Nat) : List (String × Document) → List Char
  | [] => []
  | (name, d) :: rest =>
      ',' :: style.gap level ++ quote name ++ style.colon ++ renderAt style level d ++
        renderMembers style level rest

end

/-- A document as JSON text. -/
def render (style : Style) (d : Document) : String :=
  String.ofList (renderAt style 0 d.sorted)

end Json
end ExprLang
