import ExprLang.Regex.Pattern

/-!
# Searching a text

A regular expression is tried from a spot in a text together with what has to follow it.  Its ways
to match are tried in order until one is found that what follows accepts.

A round of a repetition that makes no progress is the last one, so that the rounds are fewer than
those that must be and the characters of the text together.
-/

namespace ExprLang
namespace Regex

/-- A place in a text, and where groups have started and ended before it, the latest first. -/
structure Spot where
  position : Nat
  starts : List (Nat × Nat)
  ends : List (Nat × Nat)
deriving DecidableEq, Repr

namespace Spot

/-- The place some characters further. -/
def forward (s : Spot) (count : Nat) : Spot :=
  { s with position := s.position + count }

/-- Notes that a group starts here. -/
def opening (s : Spot) (group : Nat) : Spot :=
  { s with starts := (group, s.position) :: s.starts }

/-- Notes that a group ends here. -/
def closing (s : Spot) (group : Nat) : Spot :=
  { s with ends := (group, s.position) :: s.ends }

/-- Where the latest match of a group starts and ends.  A group that has started again after it
ended has no match. -/
def extent? (s : Spot) (group : Nat) : Option (Nat × Nat) := do
  let start ← s.starts.lookup group
  let stop ← s.ends.lookup group
  if start ≤ stop then some (start, stop) else none

end Spot

/-- A way to go on from a spot: where it ends, if it succeeds. -/
abbrev Follow := Spot → Option Spot

/-! ### Tests of the position -/

/-- Whether the character at a position, if there is one, is a word character. -/
def wordAt (text : Array Char) (ascii : Bool) (p : Nat) : Bool :=
  (text[p]?.map (Category.word.holds ascii)).getD false

/-- Whether the character before a position, if there is one, is a word character. -/
def wordBefore (text : Array Char) (ascii : Bool) (p : Nat) : Bool :=
  p != 0 && wordAt text ascii (p - 1)

/-- Whether a test of a position succeeds. -/
def Anchor.holds (text : Array Char) (p : Nat) : Anchor → Bool
  | textStart => p = 0
  | lineStart => p = 0 || text[p - 1]? == some '\n'
  | lastLineEnd => p = text.size || (p + 1 = text.size && text[p]? == some '\n')
  | lineEnd => p = text.size || text[p]? == some '\n'
  | textEnd => p = text.size
  | wordBoundary ascii => wordBefore text ascii p != wordAt text ascii p
  | insideWord ascii => !text.isEmpty && wordBefore text ascii p == wordAt text ascii p

/-! ### Repetitions -/

/-- The bounds of a repetition: how many rounds there must be, and how many there may be. -/
structure Rounds where
  greed : Greed
  least : Nat
  most : Option Nat

/-- Tries a body round after round.  `count` rounds have been made, and `last` is where the last of
them started that did not have to be. -/
def Rounds.run (r : Rounds) (body : Spot → Follow → Option Spot) :
    Nat → Nat → Option Nat → Spot → Follow → Option Spot
  | 0, _, _, _, _ => none
  | fuel + 1, count, last, s, k =>
      let forced := count < r.least
      let allowed := r.most.all (count < ·) && last != some s.position
      let again (t : Spot) : Option Spot :=
        r.run body fuel (count + 1) (if forced then last else some s.position) t k
      match r.greed with
      | .possessive =>
          if forced || allowed then
            match body s some with
            | some t => again t
            | none => if forced then none else k s
          else k s
      | .greedy =>
          if forced then body s again
          else if allowed then (body s again).orElse fun _ => k s
          else k s
      | .lazy =>
          if forced then body s again
          else (k s).orElse fun _ => if allowed then body s again else none

/-- Tries a run of characters of a class, from the longest or the shortest. -/
def Rounds.runClass (r : Rounds) (text : Array Char) (c : CharClass) (s : Spot) (k : Follow) :
    Option Spot :=
  let ahead := (text.extract s.position (match r.most with
    | some m => s.position + m
    | none => text.size)).toList
  let longest := (ahead.takeWhile c.holds).length
  let go (count : Nat) : Option Spot := k (s.forward count)
  if longest < r.least then none
  else
    let counts := (List.range (longest - r.least + 1)).map (r.least + ·)
    match r.greed with
    | .possessive => go longest
    | .greedy => counts.reverse.findSome? go
    | .lazy => counts.findSome? go

/-! ### Regular expressions -/

/-- Whether the same characters stand at a position as between two others. -/
def repeatsAt (text : Array Char) (folding : Folding) (start stop p : Nat) : Bool :=
  (List.range (stop - start)).all fun i =>
    match text[start + i]?, text[p + i]? with
    | some a, some b => folding.form a == folding.form b
    | _, _ => false

/-- Tries a regular expression from a spot, with what has to follow it. -/
def Node.run (text : Array Char) : Node → Spot → Follow → Option Spot
  | empty, s, k => k s
  | oneOf c, s, k =>
      match text[s.position]? with
      | some x => if c.holds x then k (s.forward 1) else none
      | none => none
  | sequence a b, s, k => a.run text s fun t => b.run text t k
  | either a b, s, k => (a.run text s k).orElse fun _ => b.run text s k
  | repeated greed least most (oneOf c), s, k => Rounds.runClass ⟨greed, least, most⟩ text c s k
  | repeated greed least most body, s, k =>
      let forced := min least (text.size + 1)
      let allowed := most.map fun m => forced + (m - least)
      Rounds.run ⟨greed, forced, allowed⟩ (body.run text) (forced + text.size + 3) 0 none s k
  | anchor a, s, k => if a.holds text s.position then k s else none
  | look behind negated body, s, k =>
      let back := if behind then body.width.least else 0
      let found :=
        if back ≤ s.position then body.run text { s with position := s.position - back } some
        else none
      match found, negated with
      | some t, false => k { t with position := s.position }
      | none, true => k s
      | _, _ => none
  | atomic body, s, k =>
      match body.run text s some with
      | some t => k t
      | none => none
  | group number body, s, k =>
      body.run text (s.opening number) fun t => k (t.closing number)
  | reference folding number _, s, k =>
      match s.extent? number with
      | some (start, stop) =>
          if repeatsAt text folding start stop s.position then k (s.forward (stop - start))
          else none
      | none => none
  | conditional number yes no, s, k =>
      if (s.extent? number).isSome then yes.run text s k else no.run text s k

/-- Whether a regular expression matches anywhere in a text. -/
def Pattern.matchesIn (p : Pattern) (text : List Char) : Bool :=
  let text := text.toArray
  (List.range (text.size + 1)).any fun start => (p.node.run text ⟨start, [], []⟩ some).isSome

end Regex
end ExprLang
