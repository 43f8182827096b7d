import ExprLang.Number.Decimal
import ExprLang.Number.FloatText
import ExprLang.Text.Utf8
import ExprLang.Yaml.Token

/-!
# Names, tags and directives

A node may be given a name with `&`, be taken from where it was named with `*`, and be given a tag
with `!`.  A line that begins with `%` says something about the document below it.
-/

namespace ExprLang
namespace Yaml

/-- Whether a character may stand in a name. -/
def isNameCharacter (c : Char) : Bool :=
  c.isAlphanum || c == '-' || c == '_'

/-- A name, and where it ends. -/
def takeName (c : Cursor) : Except ReadError (List Char × Cursor) :=
  let name := c.rest.takeWhile isNameCharacter
  if name.isEmpty then .error .malformed else .ok (name, c.advance name.length)

/-- Whether the name of a node may end before these characters. -/
def isNodeNameEnd (cs : List Char) : Bool :=
  isBoundary cs || (cs.head?.map ('}' :: "?:,]%@`".toList).contains).getD false

/-- The name of a node after its mark. -/
def takeNodeName (c : Cursor) : Except ReadError (List Char × Cursor) := do
  let (name, c) ← takeName c
  if !isNodeNameEnd c.rest then throw .malformed
  pure (name, c)

/-! ### Tags -/

/-- Whether a character may stand in the name of a tag. -/
def isTagCharacter (c : Char) : Bool :=
  c.isAlphanum || "-;/?:@&=+$,_.!~*'()[]%".toList.contains c

/-- The octets of characters that are written by number. -/
def takeOctets (c : Cursor) : Nat → Except ReadError (List UInt8 × Cursor)
  | 0 => .ok ([], c)
  | fuel + 1 =>
      match c.rest with
      | '%' :: digits => do
          let code := digits.take 2
          if code.length < 2 ∨ !code.all Number.isHexDigit then throw .malformed
          let (octets, last) ← takeOctets (c.advance 3) fuel
          pure (UInt8.ofNat (Number.hexValue code) :: octets, last)
      | _ => .ok ([], c)

/-- Reads octets that are UTF-8. -/
def decodeOctets (octets : List UInt8) : Except ReadError (List Char) :=
  let cs := Text.Utf8.decode octets
  if Text.Utf8.encode cs = octets then .ok cs else .error .malformed

/-- The name of a tag or a part of it, which may be empty, and where it ends. -/
def takeTagPart (c : Cursor) : Nat → Except ReadError (List Char × Cursor)
  | 0 => .ok ([], c)
  | fuel + 1 =>
      match c.rest with
      | '%' :: _ => do
          let (octets, next) ← takeOctets c c.rest.length
          let cs ← decodeOctets octets
          let (more, last) ← takeTagPart next fuel
          pure (cs ++ more, last)
      | x :: _ =>
          if isTagCharacter x then do
            let (more, last) ← takeTagPart (c.advance 1) fuel
            pure (x :: more, last)
          else .ok ([], c)
      | [] => .ok ([], c)

/-- The name of a tag, which is not empty, and where it ends. -/
def takeTagName (c : Cursor) : Except ReadError (List Char × Cursor) := do
  let (name, next) ← takeTagPart c (c.rest.length + 1)
  if next.index = c.index then throw .malformed
  pure (name, next)

/-- What stands for the beginning of the names of tags: exclamation marks with a name between them,
or one alone in front of a blank. -/
def takeHandle (c : Cursor) : Except ReadError (List Char × Cursor) :=
  match c.rest with
  | '!' :: rest =>
      let name := rest.takeWhile isNameCharacter
      match rest.dropWhile isNameCharacter with
      | '!' :: _ => .ok ('!' :: name ++ ['!'], c.advance (name.length + 2))
      | _ => if rest.head? == some ' ' then .ok (['!'], c.advance 1) else .error .malformed
  | _ => .error .malformed

/-- A tag, and where it ends. -/
def takeTag (c : Cursor) : Except ReadError (Token × Cursor) := do
  let rest := c.rest.drop 1
  let (t, c) ←
    if rest.head? == some '<' then do
      let (name, c) ← takeTagName (c.advance 2)
      if c.rest.head? != some '>' then throw .malformed
      pure (Token.tag none name, c.advance 1)
    else if isBoundary rest then pure (Token.tag none ['!'], c.advance 1)
    else do
      let word := rest.takeWhile fun x => x != ' ' && !isBreak x
      let (handle, c) ← if word.contains '!' then takeHandle c else pure (['!'], c.advance 1)
      let (suffix, c) ← takeTagName c
      pure (Token.tag (some handle) suffix, c)
  if !isWordEnd c.rest then throw .malformed
  pure (t, c)

/-! ### Directives -/

/-- A number of one digit or more, and where it ends. -/
def takeNumber (c : Cursor) : Except ReadError (Nat × Cursor) :=
  let digits := c.rest.takeWhile Char.isDigit
  if digits.isEmpty then .error .malformed
  else if Number.integerDigitLimit < digits.length then .error (.tooManyDigits digits.length)
  else .ok (Number.digitsValue digits, c.advance digits.length)

/-- What the directive about the version says after its name. -/
def takeVersion (c : Cursor) : Except ReadError (Directive × Cursor) := do
  let (major, c) ← takeNumber (c.skip (· == ' '))
  if c.rest.head? != some '.' then throw .malformed
  let (_, c) ← takeNumber (c.advance 1)
  if !isWordEnd c.rest then throw .malformed
  pure (.version major, c)

/-- What a directive about tags says after its name. -/
def takeTagHandle (c : Cursor) : Except ReadError (Directive × Cursor) := do
  let (handle, c) ← takeHandle (c.skip (· == ' '))
  if c.rest.head? != some ' ' then throw .malformed
  let (start, c) ← takeTagName (c.skip (· == ' '))
  if !isWordEnd c.rest then throw .malformed
  pure (.tagHandle handle start, c)

/-- The directive after its mark, and where the next line begins. -/
def takeDirective (c : Cursor) : Except ReadError (Directive × Cursor) := do
  let (name, c) ← takeName c
  if !isWordEnd c.rest then throw .malformed
  let (d, c) ←
    match String.ofList name with
    | "YAML" => takeVersion c
    | "TAG" => takeTagHandle c
    | _ => pure (.other, c.skip fun x => !isBreak x)
  match c.endLine? with
  | some c => pure (d, c)
  | none => throw .malformed

end Yaml
end ExprLang
