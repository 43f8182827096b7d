import ExprLang.Regex.Escape

/-!
# Reading regular expressions

A pattern is a number of alternatives, an alternative a sequence of parts, and a part a character, a
class, a test of the position or a group, which may be repeated.  A group holds alternatives again.

Flags at the front of a pattern hold for all of it, and those of a group for what is in the group.
-/

namespace ExprLang
namespace Regex

/-- The kind of a repetition, as the message says it that refuses one. -/
def Greed.kind : Greed → String
  | greedy => "MAX_REPEAT"
  | lazy => "MIN_REPEAT"
  | possessive => "POSSESSIVE_REPEAT"

/-- The length of the longest text that can be tested for coming before. -/
def lookbehindLimit : Nat := 4294967295

/-- What is wrong with a regular expression as a whole; of several faults the first in reading
order. -/
def Node.fault? (flags : Flags) : Node → Option Fault
  | empty => none
  | oneOf _ => none
  | sequence a b => (a.fault? flags).or (b.fault? flags)
  | either a b => (a.fault? flags).or (b.fault? flags)
  | repeated greed _ _ body =>
      if flags.template then some (.refusedRepetition greed.kind) else body.fault? flags
  | anchor _ => none
  | look behind _ body =>
      if behind && lookbehindLimit < body.width.least then some .longLookbehind
      else if behind && !body.width.isFixed then some .varyingLookbehind
      else body.fault? flags
  | atomic body => body.fault? flags
  | group _ body => body.fault? flags
  | reference _ _ _ => none
  | conditional _ yes no => (yes.fault? flags).or (no.fault? flags)

namespace Reader

/-! ### Repetitions -/

/-- A part of a sequence, and whether it can be repeated. -/
inductive Part where
  | plain (n : Node)
  | anchor (a : Anchor)
  | repetition (n : Node)

namespace Part

/-- The node of a part. -/
def node : Part → Node
  | plain n => n
  | anchor a => .anchor a
  | repetition n => n

/-- The part that an escape stands for. -/
def ofEscape : Node → Part
  | .anchor a => anchor a
  | n => plain n

end Part

/-- The numbers of repetitions that are too many to be written. -/
def repeatLimit : Nat := 4294967295

/-- The least and greatest number of repetitions. -/
abbrev Bounds := Nat × Option Nat

/-- The number of repetitions that digits stand for, if there are any. -/
def boundOf (digits : List Char) : Reader (Option Nat) := do
  if digits.isEmpty then
    return none
  else
    let position ← here
    if Number.integerDigitLimit < digits.length then
      fail (.tooManyDigits digits.length) position
    let bound := Number.digitsValue digits
    if repeatLimit ≤ bound then fail .repeatTooLarge position
    return some bound

/-- A bound in braces, or `none` where a brace stands for itself. -/
def braceBounds? : Reader (Option Bounds) := do
  let saved := (← get).rest
  let start ← here
  if ← isNext '\x7d' then
    return none
  else
    let low ← takeWhile Char.isDigit (← remaining)
    let comma ← take ','
    let high ← if comma then takeWhile Char.isDigit (← remaining) else pure low
    if ← take '\x7d' then
      let least := (← boundOf low).getD 0
      let most ← boundOf high
      if most.any (· < least) then fail .repeatBounds start
      return some (least, most)
    else
      goTo saved
      return none

/-- The bounds of a repetition mark that was just taken. -/
def boundsOf? (mark : Char) : Reader (Option Bounds) :=
  match mark with
  | '?' => return some (0, some 1)
  | '*' => return some (0, none)
  | '+' => return some (1, none)
  | _ => braceBounds?

/-- What a repetition tries first, which a mark after it says. -/
def greed : Reader Greed := do
  if ← take '?' then return .lazy
  else if ← take '+' then return .possessive
  else return .greedy

/-- Repeats the last part of a sequence; `parts` holds the newest first and `position` is that of
the repetition mark. -/
def repeatLast (position : Nat) (bounds : Bounds) : List Part → Reader (List Part)
  | [] => fail .nothingToRepeat position
  | .anchor _ :: _ => fail .nothingToRepeat position
  | .repetition _ :: _ => fail .multipleRepeat position
  | .plain n :: rest =>
      return .repetition (.repeated (← greed) bounds.1 bounds.2 n) :: rest

/-! ### Names of groups -/

/-- Whether some characters can be the name of a group. -/
def isGroupName : List Char → Bool
  | [] => false
  | c :: rest =>
      (c == '_' || Text.isLetter c) &&
        rest.all fun d => d == '_' || Text.isLetter d || Text.isDecimalDigit d

/-- The name of a group, up to a character that closes it. -/
def groupName (closing : Char) : Reader String := do
  let name ← takeUntil closing "group name" [] ((← remaining) + 1)
  if !isGroupName name then failBack (.badGroupName (String.ofList name)) (name.length + 1)
  return String.ofList name

/-- The number of a group with a name that was just read. -/
def groupNamed (name : String) : Reader Nat := do
  match (← get).names.lookup name with
  | some number => return number
  | none => failBack (.unknownGroupName name) (name.length + 1)

/-- The numbers that no group can have. -/
def groupLimit : Nat := 1073741823

/-- The number of a group that a condition gives in digits, which were just read.  Whether there is
such a group is seen at the end of the pattern. -/
def groupNumbered (digits : List Char) : Reader Nat := do
  let written := digits.length + 1
  let isShort := (digits.filter Text.isDecimalDigit).length ≤ Number.integerDigitLimit
  match if isShort then Number.readInt? digits else none with
  | some (.ofNat number) =>
      if number = 0 then failBack .badGroupNumber written
      if groupLimit ≤ number then failBack (.invalidReference number) written
      let position := (← here) - written
      modify fun s => { s with conditions := s.conditions ++ [(number, position)] }
      return number
  | _ => failBack (.badGroupName (String.ofList digits)) written

/-- The group that a condition asks for. -/
def conditionGroup : Reader Nat := do
  let name ← takeUntil ')' "group name" [] ((← remaining) + 1)
  let number ← if isGroupName name then groupNamed (String.ofList name) else groupNumbered name
  checkLookbehind number
  return number

/-! ### Flags -/

/-- The flag of a letter. -/
def flagOf? : Char → Option Flags
  | 'i' => some { Flags.none with ignoreCase := true }
  | 'm' => some { Flags.none with multiline := true }
  | 's' => some { Flags.none with dotAll := true }
  | 'x' => some { Flags.none with verbose := true }
  | 'a' => some { Flags.none with ascii := true }
  | 'u' => some { Flags.none with unicode := true }
  | 't' => some { Flags.none with template := true }
  | 'L' => some .none
  | _ => none

/-- The letter of a flag or one of some marks; `what` says what should be there. -/
def flagLetter (marks : List Char) (what : String) : Reader Char := do
  match ← next with
  | none => failBack (.missing what) 0
  | some t =>
      if !t.escaped && ((flagOf? t.char).isSome || marks.contains t.char) then return t.char
      else if !t.escaped && Text.isLetter t.char then failBack .unknownFlag 1
      else failBack (.missing what) t.chars.length

/-- Flags that are turned on, of which the first letter is taken already, and the mark after
them. -/
def flagsOn : Nat → Flags → Char → Reader (Flags × Char)
  | 0, on, c => return (on, c)
  | fuel + 1, on, c => do
      match flagOf? c with
      | none => return (on, c)
      | some flag =>
          if c = 'L' then failBack .localeFlag 0
          let on := on.union flag
          if on.ascii && on.unicode then failBack .scriptFlags 0
          flagsOn fuel on (← flagLetter [')', '-', ':'] "-, : or )")

/-- Flags that are turned off, of which the first letter is taken already, up to a colon. -/
def flagsOff : Nat → Flags → Char → Reader Flags
  | 0, off, _ => return off
  | fuel + 1, off, c => do
      match flagOf? c with
      | none => return off
      | some flag =>
          if c = 'L' || flag.hasScript then failBack .scriptFlagOff 0
          flagsOff fuel (off.union flag) (← flagLetter [':'] ":")

/-! ### Groups -/

/-- The readers of what is inside of a group, under some flags. -/
structure Inside where
  alternatives : Flags → Reader Node
  sequence : Flags → Reader Node

/-- What an opening parenthesis begins. -/
inductive Opened where
  /-- A comment. -/
  | nothing
  /-- Flags that hold from here on. -/
  | flags (f : Flags)
  | part (n : Node)

/-- What stands between parentheses, the first of which is at `start`. -/
def enclosed (inner : Reader Node) (start : Nat) : Reader Node := do
  let n ← inner
  if ← take ')' then return n else fail .missingParenthesis start

/-- A group that keeps what it matches. -/
def captured (inner : Reader Node) (start : Nat) (name : Option String) : Reader Node := do
  let number ← openGroup name
  let n ← enclosed inner start
  closeGroup number n
  return .group number n

/-- A test of what follows or of what comes before. -/
def lookaround (inner : Reader Node) (start : Nat) (behind negated : Bool) : Reader Node := do
  let outer := (← get).lookbehind
  if behind && outer.isNone then
    modify fun s => { s with lookbehind := some s.groups }
  let n ← enclosed (do
    let n ← inner
    modify fun s => { s with lookbehind := outer }
    return n) start
  return .look behind negated n

/-- One of two sequences by whether a group has matched; the second may be left out. -/
def conditionalGroup (inner : Reader Node) (start : Nat) : Reader Node := do
  let number ← conditionGroup
  enclosed (do
    let yes ← inner
    if ← take '|' then
      let no ← inner
      if ← isNext '|' then failBack .tooManyBranches 0
      return .conditional number yes no
    else
      return .conditional number yes .empty) start

/-- A group that starts with flags, of which the first letter or a minus sign is taken already.
Without alternatives in it, the flags hold for the whole pattern. -/
def flagGroup (inside : Inside) (f : Flags) (start : Nat) (isFront : Bool) (c : Char) :
    Reader Opened := do
  let (on, mark) ← flagsOn ((← remaining) + 2) .none c
  if mark = ')' then
    if !isFront then fail .misplacedFlags start
    modify fun s => { s with flags := s.flags.union on }
    return .flags (← get).flags
  else
    if on.template then failBack .wholeFlagOn 1
    let off ←
      if mark = '-' then flagsOff ((← remaining) + 2) .none (← flagLetter [] "flag")
      else pure Flags.none
    if off.template then failBack .wholeFlagOff 1
    if on.overlaps off then failBack .flagOnAndOff 1
    return .part (← enclosed (inside.alternatives (f.change on off)) start)

/-- A group with a name, or a reference to one. -/
def namedGroup (inside : Inside) (f : Flags) (start : Nat) : Reader Node := do
  if ← take '<' then
    let name ← groupName '>'
    captured (inside.alternatives f) start (some name)
  else if ← take '=' then
    let name ← groupName ')'
    let number ← groupNamed name
    referTo f.folding number (name.length + 1)
  else
    match ← next with
    | none => failBack .unexpectedEnd 0
    | some t => failBack (.unknownExtension ("P" ++ t.shown)) (t.chars.length + 2)

/-- A test of what comes before, after the mark that announces it. -/
def lookbehindGroup (inner : Reader Node) (start : Nat) : Reader Node := do
  match ← next with
  | none => failBack .unexpectedEnd 0
  | some t =>
      if t.isBare '=' then lookaround inner start true false
      else if t.isBare '!' then lookaround inner start true true
      else failBack (.unknownExtension ("<" ++ t.shown)) (t.chars.length + 2)

/-- Passes a comment up to its closing parenthesis. -/
def skipComment (start : Nat) : Nat → Reader Unit
  | 0 => fail .unterminatedComment start
  | fuel + 1 => do
      if (← peek).isNone then fail .unterminatedComment start
      if ← take ')' then return ()
      advance
      skipComment start fuel

/-- What a group is that starts with a question mark; the token after it is taken already. -/
def extension (inside : Inside) (f : Flags) (start : Nat) (isFront : Bool) (t : PatternToken) :
    Reader Opened := do
  let inner := inside.alternatives f
  if t.escaped then
    failBack (.unknownExtension t.shown) (t.chars.length + 1)
  else
    match t.char with
    | 'P' => return .part (← namedGroup inside f start)
    | ':' => return .part (← enclosed inner start)
    | '#' => do
        skipComment start ((← remaining) + 1)
        return .nothing
    | '=' => return .part (← lookaround inner start false false)
    | '!' => return .part (← lookaround inner start false true)
    | '<' => return .part (← lookbehindGroup inner start)
    | '(' => return .part (← conditionalGroup (inside.sequence f) start)
    | '>' => return .part (.atomic (← enclosed inner start))
    | c =>
        if c = '-' || (flagOf? c).isSome then flagGroup inside f start isFront c
        else failBack (.unknownExtension t.shown) 2

/-- What an opening parenthesis begins that was just taken; `isFront` says whether nothing stands
before it. -/
def opened (inside : Inside) (f : Flags) (start : Nat) (isFront : Bool) : Reader Opened := do
  if ← take '?' then
    match ← next with
    | none => failBack .unexpectedEnd 0
    | some t => extension inside f start isFront t
  else
    return .part (← captured (inside.alternatives f) start none)

/-! ### Sequences and alternatives -/

/-- The node of a sequence of parts, the newest first. -/
def sequenceNode (parts : List Part) : Node :=
  parts.foldl (fun later p => match later with
    | .empty => p.node
    | n => .sequence p.node n) .empty

/-- The blanks that have no meaning in verbose patterns. -/
def verboseBlanks : List Char := [' ', '\t', '\n', '\r', '\x0b', '\x0c']

/-- Passes the rest of a line. -/
def skipLine : Nat → Reader Unit
  | 0 => return ()
  | fuel + 1 => do
      match ← next with
      | none => return ()
      | some t => if t.isBare '\n' then return () else skipLine fuel

/-- Adds to the parts of a sequence, the newest first, what a token begins that was just taken.  The
flags are those that hold after it.  `leads` says whether the sequence is the first of the
pattern. -/
def extend (inside : Inside) (leads : Bool) (f : Flags) (parts : List Part) (t : PatternToken) :
    Reader (Flags × List Part) := do
  let plain (n : Node) : Flags × List Part := (f, .plain n :: parts)
  if t.escaped then
    return (f, .ofEscape (← escapeNode f t) :: parts)
  else if f.verbose && verboseBlanks.contains t.char then
    return (f, parts)
  else if f.verbose && t.char == '#' then
    skipLine ((← remaining) + 1)
    return (f, parts)
  else
    match t.char with
    | '[' => return plain (← classNode f t.position)
    | '.' => return plain (.oneOf (if f.dotAll then .anything else .anyInLine))
    | '^' => return (f, .anchor (if f.multiline then .lineStart else .textStart) :: parts)
    | '$' => return (f, .anchor (if f.multiline then .lineEnd else .lastLineEnd) :: parts)
    | '(' =>
        match ← opened inside f t.position (leads && parts.isEmpty) with
        | .nothing => return (f, parts)
        | .flags f => return (f, parts)
        | .part n => return plain n
    | c =>
        if c = '?' || c = '*' || c = '+' || c = '\x7b' then
          match ← boundsOf? c with
          | none => return plain (f.charNode c.toNat)
          | some bounds => return (f, ← repeatLast t.position bounds parts)
        else
          return plain (f.charNode c.toNat)

/-- The parts of a sequence up to a bar, a closing parenthesis or the end, after those that were
read. -/
def parts (inside : Inside) (leads : Bool) : Nat → Flags → List Part → Reader (List Part)
  | 0, _, found => return found
  | fuel + 1, f, found => do
      match ← peek with
      | none => return found
      | some t =>
          if t.isBare '|' || t.isBare ')' then
            return found
          else
            advance
            let (f, found) ← extend inside leads f found t
            parts inside leads fuel f found

/-- A sequence. -/
def sequence (inside : Inside) (leads : Bool) (f : Flags) : Reader Node := do
  return sequenceNode (← parts inside leads ((← remaining) + 1) f [])

/-- Sequences with bars between them. -/
def alternatives (inside : Inside) (f : Flags) : Nat → Reader Node
  | 0 => return .empty
  | fuel + 1 => do
      let first ← sequence inside false f
      if ← take '|' then
        return .either first (← alternatives inside f fuel)
      else
        return first

/-- The readers of groups that nest at most as deeply as the budget says. -/
def insideAt : Nat → Inside
  | 0 => ⟨fun _ => return .empty, fun _ => return .empty⟩
  | depth + 1 =>
      let inside := insideAt depth
      ⟨fun f => do alternatives inside f ((← remaining) + 1), sequence inside false⟩

/-! ### Whole patterns -/

/-- The alternatives of a whole pattern.  Flags at the front of the first hold for all. -/
def wholeNode : Reader Node := do
  let inside := insideAt ((← remaining) + 1)
  let first ← sequence inside true .none
  if ← take '|' then
    return .either first (← inside.alternatives (← get).flags)
  else
    return first

/-- A whole pattern. -/
def whole : Reader Pattern := do
  goTo (← get).rest
  let n ← wholeNode
  let s ← get
  if s.flags.ascii && s.flags.unicode then failBack .scriptFlagsOfPattern 0
  if (← peek).isSome then failBack .unbalancedParenthesis 0
  match s.conditions.find? fun (number, _) => s.groups < number with
  | some (number, position) => fail (.invalidReference number) position
  | none => pure ()
  match n.fault? s.flags with
  | some fault => failBack fault 0
  | none => return ⟨s.flags, n⟩

end Reader

/-- Reads a pattern. -/
def parsePattern (pattern : List Char) : Except PatternError Pattern :=
  (Reader.whole.run (.start pattern)).map (·.1)

end Regex
end ExprLang
