import ExprLang.Text.Alphanumeric
import ExprLang.Text.Blank
import ExprLang.Text.Digit
import ExprLang.Text.LetterCase

/-!
# Regular expressions

The syntax trees of regular expressions: classes of characters, sequences, alternatives,
repetitions, groups and references to them, tests of the position, and tests of what stands before
or behind it.
-/

namespace ExprLang
namespace Regex

/-! ### Flags -/

/-- What changes the meaning of a pattern. -/
structure Flags where
  /-- Letters stand for both cases. -/
  ignoreCase : Bool
  /-- The tests of the start and the end hold at every line. -/
  multiline : Bool
  /-- A point stands for a newline too. -/
  dotAll : Bool
  /-- Blanks and comments in the pattern have no meaning. -/
  verbose : Bool
  /-- Classes of characters and cases are those of ASCII. -/
  ascii : Bool
  /-- Classes of characters and cases are said to be those of all scripts. -/
  unicode : Bool
  /-- Nothing may be repeated. -/
  template : Bool
deriving DecidableEq, Repr

namespace Flags

/-- No flag. -/
def none : Flags := ⟨false, false, false, false, false, false, false⟩

/-- The flags of either. -/
def union (a b : Flags) : Flags :=
  ⟨a.ignoreCase || b.ignoreCase, a.multiline || b.multiline, a.dotAll || b.dotAll,
    a.verbose || b.verbose, a.ascii || b.ascii, a.unicode || b.unicode, a.template || b.template⟩

/-- The flags of one that are not those of another. -/
def without (a b : Flags) : Flags :=
  ⟨a.ignoreCase && !b.ignoreCase, a.multiline && !b.multiline, a.dotAll && !b.dotAll,
    a.verbose && !b.verbose, a.ascii && !b.ascii, a.unicode && !b.unicode,
    a.template && !b.template⟩

/-- Whether two have a flag in common. -/
def overlaps (a b : Flags) : Bool :=
  a.without b != a

/-- Whether a flag says which scripts count. -/
def hasScript (a : Flags) : Bool :=
  a.ascii || a.unicode

/-- Turns some flags on and others off.  What is said about scripts takes the place of what was said
before. -/
def change (a on off : Flags) : Flags :=
  let kept := if on.hasScript then { a with ascii := false, unicode := false } else a
  (kept.union on).without off

end Flags

/-! ### Characters -/

/-- The named classes of characters. -/
inductive Category where
  | digit
  | space
  | word
deriving DecidableEq, Repr

/-- Whether a character is in a named class. -/
def Category.holds (ascii : Bool) : Category → Char → Bool
  | digit, c => if ascii then c.isDigit else Text.isDecimalDigit c
  | space, c => if ascii then c == ' ' || (9 ≤ c.toNat && c.toNat ≤ 13) else Text.isBlank c
  | word, c => if ascii then c.isAlphanum || c == '_' else Text.isWordCharacter c

/-- Which characters count as the same. -/
inductive Folding where
  /-- Each is its own. -/
  | exact
  /-- The cases of ASCII letters do not count. -/
  | ascii
  /-- The cases of letters do not count. -/
  | letters
deriving DecidableEq, Repr

/-- The lower-case form of an ASCII letter. -/
def asciiLower (n : Nat) : Nat :=
  if 65 ≤ n ∧ n ≤ 90 then n + 32 else n

/-- The characters that count as the same as one, by number. -/
def Folding.variants : Folding → Nat → List Nat
  | exact, n => [n]
  | ascii, n =>
      let l := asciiLower n
      if 97 ≤ l ∧ l ≤ 122 then [l, l - 32] else [n]
  | letters, n => Text.caseVariants n

/-- The form in which characters of a text are compared. -/
def Folding.form : Folding → Char → Nat
  | exact, c => c.toNat
  | ascii, c => asciiLower c.toNat
  | letters, c => Text.lower c.toNat

/-- A member of a class of characters, which are given by their numbers. -/
inductive ClassItem where
  | char (n : Nat)
  | range (low high : Nat)
  | category (ascii negated : Bool) (category : Category)
deriving DecidableEq, Repr

/-- Whether a character is what a member of a class describes; `variants` are the characters that
count as the same. -/
def ClassItem.holds (c : Char) (variants : List Nat) : ClassItem → Bool
  | char n => variants.contains n
  | range low high => variants.any fun n => low ≤ n && n ≤ high
  | category ascii negated k => k.holds ascii c != negated

/-- A class of characters. -/
structure CharClass where
  folding : Folding
  negated : Bool
  items : List ClassItem
deriving DecidableEq, Repr

namespace CharClass

/-- Whether a character is in a class. -/
def holds (k : CharClass) (c : Char) : Bool :=
  let variants := k.folding.variants c.toNat
  k.items.any (·.holds c variants) != k.negated

/-- Any character. -/
def anything : CharClass := ⟨.exact, true, []⟩

/-- Any character but a newline. -/
def anyInLine : CharClass := ⟨.exact, true, [.char 10]⟩

end CharClass

/-! ### Patterns -/

/-- Tests of a position. -/
inductive Anchor where
  /-- The start of the text. -/
  | textStart
  /-- The start of a line. -/
  | lineStart
  /-- The end of the text, or the place before a newline that ends it. -/
  | lastLineEnd
  /-- The end of a line. -/
  | lineEnd
  /-- The end of the text. -/
  | textEnd
  /-- A place between a word character and another character. -/
  | wordBoundary (ascii : Bool)
  /-- Any other place of a text that is not empty. -/
  | insideWord (ascii : Bool)
deriving DecidableEq, Repr

/-- What a repetition tries first. -/
inductive Greed where
  /-- As many rounds as there can be. -/
  | greedy
  /-- As few rounds as there must be. -/
  | lazy
  /-- As many rounds as there can be, and nothing else. -/
  | possessive
deriving DecidableEq, Repr

/-- How many characters something may match: at least so many, and at most so many if there is such
a bound. -/
structure Width where
  least : Nat
  most : Option Nat
deriving DecidableEq, Repr

/-- Regular expressions. -/
inductive Node where
  | empty
  | oneOf (k : CharClass)
  | sequence (first second : Node)
  | either (first second : Node)
  /-- At least `least` times, and at most `most` times if there is such a bound. -/
  | repeated (greed : Greed) (least : Nat) (most : Option Nat) (body : Node)
  | anchor (a : Anchor)
  /-- Tests, without passing over it, whether what follows or what comes before matches. -/
  | look (behind negated : Bool) (body : Node)
  /-- Matches in the first way it can, and in no other. -/
  | atomic (body : Node)
  /-- Keeps what is matched, for references by number. -/
  | group (number : Nat) (body : Node)
  /-- What a group of some width has matched. -/
  | reference (folding : Folding) (number : Nat) (width : Width)
  /-- One of two, by whether a group has matched. -/
  | conditional (number : Nat) (yes no : Node)
deriving Repr, Inhabited

/-! ### Widths -/

namespace Width

/-- The width of one after the other. -/
def add (a b : Width) : Width :=
  ⟨a.least + b.least, do pure ((← a.most) + (← b.most))⟩

/-- The width of one or the other. -/
def join (a b : Width) : Width :=
  ⟨min a.least b.least, do pure (max (← a.most) (← b.most))⟩

/-- The width of a repetition. -/
def times (w : Width) (least : Nat) (most : Option Nat) : Width :=
  ⟨least * w.least,
    if w.most = some 0 || most = some 0 then some 0 else do pure ((← most) * (← w.most))⟩

/-- Whether there is only one width. -/
def isFixed (w : Width) : Bool :=
  w.most == some w.least

end Width

/-- How many characters a regular expression may match. -/
def Node.width : Node → Width
  | empty => ⟨0, some 0⟩
  | oneOf _ => ⟨1, some 1⟩
  | sequence a b => a.width.add b.width
  | either a b => a.width.join b.width
  | repeated _ least most body => body.width.times least most
  | anchor _ => ⟨0, some 0⟩
  | look _ _ _ => ⟨0, some 0⟩
  | atomic body => body.width
  | group _ body => body.width
  | reference _ _ w => w
  | conditional _ yes no => yes.width.join no.width

/-- A regular expression and the flags that hold for all of it. -/
structure Pattern where
  flags : Flags
  node : Node

end Regex
end ExprLang
