import ExprLang.Regex.Reader

/-!
# Escapes and classes in a pattern

An escape stands for a character, a class of characters or a test of the position, or it refers to
a group by its number.
-/

namespace ExprLang
namespace Regex

/-- Which characters count as the same under some flags. -/
def Flags.folding (f : Flags) : Folding :=
  if !f.ignoreCase then .exact else if f.ascii then .ascii else .letters

/-- A class under some flags. -/
def Flags.classNode (f : Flags) (negated : Bool) (items : List ClassItem) : Node :=
  .oneOf ⟨f.folding, negated, items⟩

/-- A single character under some flags. -/
def Flags.charNode (f : Flags) (n : Nat) : Node :=
  f.classNode false [.char n]

namespace Reader

/-! ### What the letters of escapes name -/

/-- The class that an escape letter names. -/
def categoryOf? (f : Flags) : Char → Option ClassItem
  | 'd' => some (.category f.ascii false .digit)
  | 'D' => some (.category f.ascii true .digit)
  | 's' => some (.category f.ascii false .space)
  | 'S' => some (.category f.ascii true .space)
  | 'w' => some (.category f.ascii false .word)
  | 'W' => some (.category f.ascii true .word)
  | _ => none

/-- The position that an escape letter tests. -/
def anchorOf? (f : Flags) : Char → Option Anchor
  | 'A' => some .textStart
  | 'Z' => some .textEnd
  | 'b' => some (.wordBoundary f.ascii)
  | 'B' => some (.insideWord f.ascii)
  | _ => none

/-- The control character that an escape letter names. -/
def controlOf? : Char → Option Nat
  | 'a' => some 7
  | 'f' => some 12
  | 'n' => some 10
  | 'r' => some 13
  | 't' => some 9
  | 'v' => some 11
  | '\\' => some 92
  | _ => none

/-! ### Characters by number or name -/

/-- A character given by its number in base sixteen, with exactly `width` digits. -/
def hexChar (t : PatternToken) (width : Nat) : Reader Nat := do
  let digits ← takeWhile Number.isHexDigit width
  let shown := String.ofList (t.chars ++ digits)
  if digits.length < width then fail (.incompleteEscape shown) t.position
  let code := Number.hexValue digits
  if 0x10FFFF < code then fail (.badEscape shown) t.position
  return code

/-- A character given by its name.  No name is known. -/
def namedChar : Reader Nat := do
  unless ← take '\x7b' do failBack (.missing "\x7b") 0
  let name ← takeUntil '\x7d' "character name" [] ((← remaining) + 1)
  failBack (.unknownCharacter (String.ofList name)) (name.length + 4)

/-- Whether a character is a digit of base eight. -/
def isOctal (c : Char) : Bool :=
  '0' ≤ c && c ≤ '7'

/-- A character given by its number in base eight. -/
def octalChar (t : PatternToken) (more : List Char) : Reader Nat := do
  let code := Number.octalValue (t.char :: more)
  if 255 < code then fail (.octalTooLarge (String.ofList (t.chars ++ more))) t.position
  return code

/-- A character that an escape stands for, digits aside; the token is already taken. -/
def literalEscape (t : PatternToken) : Reader Nat := do
  match controlOf? t.char with
  | some n => return n
  | none =>
      if t.char = 'x' then hexChar t 2
      else if t.char = 'u' then hexChar t 4
      else if t.char = 'U' then hexChar t 8
      else if t.char = 'N' then namedChar
      else if t.char.isAlpha then fail (.badEscape t.shown) t.position
      else return t.char.toNat

/-! ### Escapes -/

/-- An escape that begins with a digit other than zero: three digits of base eight are a character,
one digit or two refer to a group. -/
def digitEscape (f : Flags) (t : PatternToken) : Reader Node := do
  let more ← takeWhile Char.isDigit 1
  let third ←
    if isOctal t.char && !more.isEmpty && more.all isOctal then takeWhile isOctal 1 else pure []
  if third.isEmpty then
    let number := Number.digitsValue (t.char :: more)
    let written := more.length + 2
    if (← get).groups < number then failBack (.invalidReference number) (written - 1)
    else referTo f.folding number written
  else
    return f.charNode (← octalChar t (more ++ third))

/-- An escape outside of a class. -/
def escapeNode (f : Flags) (t : PatternToken) : Reader Node := do
  match categoryOf? f t.char, anchorOf? f t.char with
  | some item, _ => return f.classNode false [item]
  | none, some a => return .anchor a
  | none, none =>
      if t.char = '0' then return f.charNode (← octalChar t (← takeWhile isOctal 2))
      else if t.char.isDigit then digitEscape f t
      else return f.charNode (← literalEscape t)

/-- An escape inside of a class. -/
def escapeItem (f : Flags) (t : PatternToken) : Reader ClassItem := do
  match categoryOf? f t.char with
  | some item => return item
  | none =>
      if t.char = 'b' then return .char 8
      else if isOctal t.char then return .char (← octalChar t (← takeWhile isOctal 2))
      else if t.char.isDigit then fail (.badEscape t.shown) t.position
      else return .char (← literalEscape t)

/-! ### Classes -/

/-- The member that a token of a class stands for. -/
def classItem (f : Flags) (t : PatternToken) : Reader ClassItem :=
  if t.escaped then escapeItem f t else return .char t.char.toNat

/-- The range between two members of a class, which has just been read. -/
def rangeItem (first last : PatternToken) (a b : ClassItem) : Reader ClassItem := do
  let shown := first.shown ++ "-" ++ last.shown
  let refuse : Reader ClassItem := failBack (.badRange shown) shown.length
  match a, b with
  | .char low, .char high => if high < low then refuse else return .range low high
  | _, _ => refuse

/-- The members of a class up to its closing bracket, which as the first member stands for
itself.  `start` is where the class starts. -/
def classItems (f : Flags) (start : Nat) : Nat → List ClassItem → Reader (List ClassItem)
  | 0, _ => fail .unterminatedSet start
  | fuel + 1, items => do
      match ← next with
      | none => fail .unterminatedSet start
      | some t =>
          if t.isBare ']' && !items.isEmpty then
            return items
          else
            let item ← classItem f t
            if ← take '-' then
              match ← next with
              | none => fail .unterminatedSet start
              | some last =>
                  if last.isBare ']' then
                    return items ++ [item, .char 45]
                  else
                    let other ← classItem f last
                    let range ← rangeItem t last item other
                    classItems f start fuel (items ++ [range])
            else
              classItems f start fuel (items ++ [item])

/-- A class, after its opening bracket at `start`. -/
def classNode (f : Flags) (start : Nat) : Reader Node := do
  let negated ← take '^'
  let items ← classItems f start ((← remaining) + 1) []
  return f.classNode negated items

end Reader
end Regex
end ExprLang
