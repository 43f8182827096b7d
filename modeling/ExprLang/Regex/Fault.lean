import ExprLang.Number.FloatText
import ExprLang.Text.Quoted

/-!
# Why a pattern is refused

A fault is what is wrong with a pattern, and `PatternError` a fault with its place.
-/

namespace ExprLang
namespace Regex

/-- What is wrong with a pattern. -/
inductive Fault where
  /-- Something is not there that has to be. -/
  | missing (what : String)
  | missingParenthesis
  | unterminatedComment
  | unterminatedName (closing : Char)
  | unterminatedSet
  | unexpectedEnd
  | unbalancedParenthesis
  | nothingToRepeat
  | multipleRepeat
  | repeatBounds
  | repeatTooLarge
  /-- A number of repetitions has too many digits. -/
  | tooManyDigits (count : Nat)
  | badRange (shown : String)
  | danglingEscape
  | badEscape (shown : String)
  | incompleteEscape (shown : String)
  | octalTooLarge (shown : String)
  | unknownCharacter (name : String)
  | invalidReference (group : Nat)
  | openGroup
  /-- A reference in a test of what comes before, to a group in that test. -/
  | groupInLookbehind
  | badGroupName (name : String)
  | unknownGroupName (name : String)
  | badGroupNumber
  | groupRedefined (name : String) (number before : Nat)
  | tooManyBranches
  | unknownExtension (shown : String)
  | unknownFlag
  | localeFlag
  | scriptFlags
  | scriptFlagOff
  | flagOnAndOff
  /-- A flag that holds for a whole pattern is turned on for a part of it. -/
  | wholeFlagOn
  /-- A flag that holds for a whole pattern is turned off for a part of it. -/
  | wholeFlagOff
  | misplacedFlags
  /-- Flags that each hold for the whole pattern contradict one another. -/
  | scriptFlagsOfPattern
  | varyingLookbehind
  | longLookbehind
  /-- A repetition of some kind, in a pattern that must not have any. -/
  | refusedRepetition (kind : String)
deriving DecidableEq, Repr

/-- What a fault is, without its place. -/
def Fault.reason : Fault → String
  | missing what => "missing " ++ what
  | missingParenthesis => "missing ), unterminated subpattern"
  | unterminatedComment => "missing ), unterminated comment"
  | unterminatedName closing => "missing " ++ closing.toString ++ ", unterminated name"
  | unterminatedSet => "unterminated character set"
  | unexpectedEnd => "unexpected end of pattern"
  | unbalancedParenthesis => "unbalanced parenthesis"
  | nothingToRepeat => "nothing to repeat"
  | multipleRepeat => "multiple repeat"
  | repeatBounds => "min repeat greater than max repeat"
  | repeatTooLarge => "the repetition number is too large"
  | tooManyDigits count => Number.tooManyDigitsMessage count
  | badRange shown => "bad character range " ++ shown
  | danglingEscape => "bad escape (end of pattern)"
  | badEscape shown => "bad escape " ++ shown
  | incompleteEscape shown => "incomplete escape " ++ shown
  | octalTooLarge shown => "octal escape value " ++ shown ++ " outside of range 0-0o377"
  | unknownCharacter name => "undefined character name " ++ Text.Quoted.text name
  | invalidReference group => "invalid group reference " ++ Number.natText group
  | openGroup => "cannot refer to an open group"
  | groupInLookbehind => "cannot refer to group defined in the same lookbehind subpattern"
  | badGroupName name => "bad character in group name " ++ Text.Quoted.text name
  | unknownGroupName name => "unknown group name " ++ Text.Quoted.text name
  | badGroupNumber => "bad group number"
  | groupRedefined name number before =>
      "redefinition of group name " ++ Text.Quoted.text name ++ " as group " ++
        Number.natText number ++ "; was group " ++ Number.natText before
  | tooManyBranches => "conditional backref with more than two branches"
  | unknownExtension shown => "unknown extension ?" ++ shown
  | unknownFlag => "unknown flag"
  | localeFlag => "bad inline flags: cannot use 'L' flag with a str pattern"
  | scriptFlags => "bad inline flags: flags 'a', 'u' and 'L' are incompatible"
  | scriptFlagOff => "bad inline flags: cannot turn off flags 'a', 'u' and 'L'"
  | flagOnAndOff => "bad inline flags: flag turned on and off"
  | wholeFlagOn => "bad inline flags: cannot turn on global flag"
  | wholeFlagOff => "bad inline flags: cannot turn off global flag"
  | misplacedFlags => "global flags not at the start of the expression"
  | scriptFlagsOfPattern => "ASCII and UNICODE flags are incompatible"
  | varyingLookbehind => "look-behind requires fixed-width pattern"
  | longLookbehind => "looks too much behind"
  | refusedRepetition kind => "internal: unsupported template operator " ++ kind

/-- Whether a fault is said with its place in the pattern. -/
def Fault.isPlaced : Fault → Bool
  | repeatTooLarge => false
  | tooManyDigits _ => false
  | scriptFlagsOfPattern => false
  | varyingLookbehind => false
  | longLookbehind => false
  | refusedRepetition _ => false
  | _ => true

/-- A fault and the offset in the pattern that it is about. -/
structure PatternError where
  fault : Fault
  position : Nat
deriving DecidableEq, Repr

/-- The wording of an error.  In a pattern of several lines the line and column are given too. -/
def PatternError.message (pattern : List Char) (e : PatternError) : String :=
  if !e.fault.isPlaced then
    e.fault.reason
  else
    let before := pattern.take e.position
    let line := before.count '\n' + 1
    let col := (before.reverse.takeWhile (· != '\n')).length + 1
    e.fault.reason ++ " at position " ++ Number.natText e.position ++
      (if pattern.contains '\n' then
        " (line " ++ Number.natText line ++ ", column " ++ Number.natText col ++ ")"
      else "")

end Regex
end ExprLang
