import ExprLang.Text.Ranges

/-!
# Blank characters

Whitespace in the wide sense: the Unicode separators together with the ASCII control characters
that separate text.  `strip` removes it from both ends of a text.
-/

namespace ExprLang
namespace Text

/-- The code points that separate words. -/
def blankRanges : List (Nat × Nat) := [
  (9, 13), (28, 32), (133, 133), (160, 160), (5760, 5760), (8192, 8202), (8232, 8233),
  (8239, 8239), (8287, 8287), (12288, 12288)]

/-- Whether a character is whitespace. -/
def isBlank (c : Char) : Bool :=
  InRanges blankRanges c

/-- Drops whitespace at both ends. -/
def strip (cs : List Char) : List Char :=
  ((cs.dropWhile isBlank).reverse.dropWhile isBlank).reverse

end Text
end ExprLang
