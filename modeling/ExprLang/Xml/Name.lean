import ExprLang.Number.Decimal
import ExprLang.Text.Ranges

/-!
# Names and references in XML

The characters that may stand in a text, in a name and between the parts of a tag, and the
characters that references stand for.
-/

namespace ExprLang
namespace Xml

/-! ### Characters -/

/-- Whether a character may stand in a text at all. -/
def isAllowed (c : Char) : Bool :=
  c == '\t' || c == '\n' || (32 ≤ c.toNat && c.toNat != 0xFFFE && c.toNat != 0xFFFF)

/-- Whether a character is a blank between the parts of a tag. -/
def isGap (c : Char) : Bool :=
  c == ' ' || c == '\t' || c == '\n' || c == '\r'

/-- The characters beyond ASCII that may begin a name. -/
def nameStartRanges : List (Nat × Nat) := [
  (0xC0, 0xD6), (0xD8, 0xF6), (0xF8, 0x2FF), (0x370, 0x37D), (0x37F, 0x1FFF), (0x200C, 0x200D),
  (0x2070, 0x218F), (0x2C00, 0x2FEF), (0x3001, 0xD7FF), (0xF900, 0xFDCF), (0xFDF0, 0xFFFD)]

/-- Whether a character may begin a name. -/
def isNameStart (c : Char) : Bool :=
  c.isAlpha || c == '_' || c == ':' || Text.InRanges nameStartRanges c

/-- Whether a character may stand in a name. -/
def isNameCharacter (c : Char) : Bool :=
  isNameStart c || c.isDigit || c == '-' || c == '.' ||
    Text.InRanges [(0xB7, 0xB7), (0x300, 0x36F), (0x203F, 0x2040)] c

/-- The name at the front of a text. -/
def takeName? : List Char → Option (List Char × List Char)
  | [] => none
  | c :: rest =>
      if isNameStart c then
        some (c :: rest.takeWhile isNameCharacter, rest.dropWhile isNameCharacter)
      else none

/-- Drops blanks. -/
def skipGap (cs : List Char) : List Char :=
  cs.dropWhile isGap

/-- The text before a mark, and what follows the mark. -/
def takeUntil? (mark : List Char) : List Char → Option (List Char × List Char)
  | [] => none
  | c :: rest =>
      if mark.isPrefixOf (c :: rest) then some ([], (c :: rest).drop mark.length)
      else (takeUntil? mark rest).map fun (before, after) => (c :: before, after)

/-- The character that a number between `&#` and `;` stands for. -/
def characterOf? (digits : List Char) : Option Char :=
  let code? : Option Nat :=
    match digits with
    | 'x' :: hex =>
        if !hex.isEmpty && hex.all Number.isHexDigit then some (Number.hexValue hex) else none
    | _ =>
        if !digits.isEmpty && digits.all Char.isDigit then some (Number.digitsValue digits)
        else none
  code?.bind fun code =>
    if (Nat.isValidChar code) then
      let c := Char.ofNat code
      if isAllowed c || c == '\r' then some c else none
    else none

/-- What a reference after `&` stands for, and what follows its semicolon.  Where entities may have
been declared elsewhere, a name that is not known stands for nothing; else it is refused. -/
def takeReference? (complete : Bool) (cs : List Char) : Option (List Char × List Char) := do
  let (name, rest) ← takeUntil? [';'] cs
  match name with
  | '#' :: digits => some ([← characterOf? digits], rest)
  | _ =>
      let named := [("lt", '<'), ("gt", '>'), ("amp", '&'), ("quot", '"'), ("apos", '\'')]
      match named.lookup (String.ofList name), takeName? name with
      | some c, _ => some ([c], rest)
      | none, some (_, []) => if complete then none else some ([], rest)
      | none, _ => none

/-! ### Comments and instructions -/

/-- What follows a comment after `<!--`; two dashes end it. -/
def skipComment? (cs : List Char) : Option (List Char) := do
  let (_, rest) ← takeUntil? ['-', '-'] cs
  match rest with
  | '>' :: rest => some rest
  | _ => none

/-- What follows an instruction after `<?`; its name is not that of a declaration. -/
def skipInstruction? (cs : List Char) : Option (List Char) := do
  let (name, rest) ← takeName? cs
  if name.map Char.toLower = "xml".toList then none
  else
    let (_, after) ← takeUntil? ['?', '>'] rest
    if (rest.head?.map isGap).getD false || ['?', '>'].isPrefixOf rest then some after else none

/-! ### Attributes -/

/-- The content of an attribute: a tab or a break counts as a blank, and `<` is refused. -/
def attributeText? (complete : Bool) : Nat → List Char → Option (List Char)
  | 0, _ => none
  | _ + 1, [] => some []
  | fuel + 1, c :: rest =>
      if c = '<' then none
      else if c = '&' then do
        let (meant, rest) ← takeReference? complete rest
        (attributeText? complete fuel rest).map (meant ++ ·)
      else (attributeText? complete fuel rest).map ((if isGap c then ' ' else c) :: ·)

/-- A content between quotes, not yet read, and what follows it. -/
def takeLiteral? : List Char → Option (List Char × List Char)
  | quote :: rest =>
      if quote = '"' ∨ quote = '\'' then takeUntil? [quote] rest else none
  | [] => none

end Xml
end ExprLang
