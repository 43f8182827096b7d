import ExprLang.Regex.Fault
import ExprLang.Regex.Pattern

/-!
# The tokens of a pattern

A pattern is read as a sequence of tokens, a backslash and the character after it being one.  A
backslash that ends the pattern is noticed as soon as it is the next token.
-/

namespace ExprLang
namespace Regex

/-- A token of a pattern: a character, which a backslash may stand before. -/
structure PatternToken where
  escaped : Bool
  char : Char
  position : Nat
  /-- Whether this is a backslash that ends the pattern. -/
  dangling : Bool

namespace PatternToken

/-- A token as it was written. -/
def chars (t : PatternToken) : List Char :=
  if t.escaped then ['\\', t.char] else [t.char]

/-- The text of a token. -/
def shown (t : PatternToken) : String :=
  String.ofList t.chars

/-- Whether a token is a character without a backslash. -/
def isBare (t : PatternToken) (c : Char) : Bool :=
  !t.escaped && t.char == c

end PatternToken

/-- The tokens of a pattern. -/
def patternTokens : Nat → List Char → List PatternToken
  | _, [] => []
  | p, ['\\'] => [⟨false, '\\', p, true⟩]
  | p, '\\' :: c :: rest => ⟨true, c, p, false⟩ :: patternTokens (p + 2) rest
  | p, c :: rest => ⟨false, c, p, false⟩ :: patternTokens (p + 1) rest

/-- Where a reader of patterns stands. -/
structure ReaderState where
  /-- The tokens ahead. -/
  rest : List PatternToken
  /-- The length of the pattern. -/
  length : Nat
  /-- The flags that hold for the whole pattern. -/
  flags : Flags
  /-- The number of groups opened so far. -/
  groups : Nat
  /-- The groups that are closed. -/
  widths : List (Nat × Width)
  names : List (String × Nat)
  /-- Within a test of what comes before, the number of groups opened before it. -/
  lookbehind : Option Nat
  /-- The groups that conditions name by number, and where, the first of them first. -/
  conditions : List (Nat × Nat)

/-- The state at the front of a pattern. -/
def ReaderState.start (pattern : List Char) : ReaderState :=
  ⟨patternTokens 0 pattern, pattern.length, .none, 0, [], [], none, []⟩

/-- A reader of some part of a pattern. -/
abbrev Reader (α : Type) := StateT ReaderState (Except PatternError) α

namespace Reader

/-- Refuses the pattern. -/
def fail {α : Type} (fault : Fault) (position : Nat) : Reader α :=
  throw ⟨fault, position⟩

/-- The offset of the next token, or of the end. -/
def here : Reader Nat := do
  let s ← get
  return match s.rest with
    | t :: _ => t.position
    | [] => s.length

/-- Refuses the pattern for something that ends here and has a length. -/
def failBack {α : Type} (fault : Fault) (length : Nat) : Reader α := do
  fail fault ((← here) - length)

/-- The next token. -/
def peek : Reader (Option PatternToken) :=
  return (← get).rest.head?

/-- Makes some tokens the ones ahead; the first must not be a backslash that ends the pattern. -/
def goTo (rest : List PatternToken) : Reader Unit := do
  match rest with
  | t :: _ => if t.dangling then fail .danglingEscape t.position
  | [] => pure ()
  modify fun s => { s with rest := rest }

/-- Passes the next token. -/
def advance : Reader Unit := do
  goTo (← get).rest.tail

/-- Takes the next token, if there is one. -/
def next : Reader (Option PatternToken) := do
  let t ← peek
  advance
  return t

/-- Whether the next token is a given character that is not escaped. -/
def isNext (c : Char) : Reader Bool := do
  return ((← peek).map (·.isBare c)).getD false

/-- Takes a given character if it comes next. -/
def take (c : Char) : Reader Bool := do
  if ← isNext c then
    advance
    return true
  else
    return false

/-- Takes characters that pass a test, at most `most` of them. -/
def takeWhile (test : Char → Bool) : Nat → Reader (List Char)
  | 0 => return []
  | most + 1 => do
      match (← get).rest with
      | t :: _ =>
          if !t.escaped && test t.char then
            advance
            let others ← takeWhile test most
            return t.char :: others
          else
            return []
      | [] => return []

/-- The number of tokens ahead. -/
def remaining : Reader Nat :=
  return (← get).rest.length

/-- Takes what stands before a character that closes it, and that character; `found` is what has
been taken, and `what` says what should be there. -/
def takeUntil (closing : Char) (what : String) (found : List Char) : Nat → Reader (List Char)
  | 0 => failBack (.unterminatedName closing) found.length
  | fuel + 1 => do
      match ← next with
      | none =>
          if found.isEmpty then failBack (.missing what) 0
          else failBack (.unterminatedName closing) found.length
      | some t =>
          if t.isBare closing then
            if found.isEmpty then failBack (.missing what) 1 else return found
          else takeUntil closing what (found ++ t.chars) fuel

/-! ### Groups -/

/-- Whether a group can be referred to. -/
def isClosed (number : Nat) : Reader Bool :=
  return ((← get).widths.lookup number).isSome

/-- Refuses a reference, in a test of what comes before, to a group in that test. -/
def checkLookbehind (number : Nat) : Reader Unit := do
  match (← get).lookbehind with
  | none => pure ()
  | some outside =>
      unless ← isClosed number do failBack .openGroup 0
      if outside < number then failBack .groupInLookbehind 0

/-- A reference to a group that was written in the characters before; it must be closed. -/
def referTo (folding : Folding) (number written : Nat) : Reader Node := do
  match (← get).widths.lookup number with
  | none => failBack .openGroup written
  | some width =>
      checkLookbehind number
      return .reference folding number width

/-- Opens a group, perhaps with a name that was just written, and gives its number. -/
def openGroup (name : Option String) : Reader Nat := do
  let s ← get
  let number := s.groups + 1
  match name with
  | none => set { s with groups := number }
  | some name =>
      match s.names.lookup name with
      | some before => failBack (.groupRedefined name number before) (name.length + 1)
      | none => set { s with groups := number, names := (name, number) :: s.names }
  return number

/-- Closes a group. -/
def closeGroup (number : Nat) (body : Node) : Reader Unit :=
  modify fun s => { s with widths := (number, body.width) :: s.widths }

end Reader
end Regex
end ExprLang
