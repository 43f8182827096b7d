import ExprLang.Yaml.Cursor
import ExprLang.Yaml.ReadError

/-!
# Scalars in block style

A scalar in block style is all that lies right of a column below its heading.  The heading says
whether lines are folded, what becomes of the breaks at the end, and perhaps how far its lines are
indented; where it does not, the lines before the first word decide.
-/

namespace ExprLang
namespace Yaml

/-- What becomes of the breaks at the end of a scalar in block style. -/
inductive Chomping where
  /-- The last line keeps its break. -/
  | clip
  /-- The last line keeps its break and those of the empty lines below. -/
  | keep
  /-- No break is kept. -/
  | strip
deriving DecidableEq, Repr

/-- What stands at the front of a heading about the breaks at the end. -/
def takeChomping? (c : Cursor) : Option (Chomping × Cursor) :=
  match c.rest with
  | '+' :: _ => some (.keep, c.advance 1)
  | '-' :: _ => some (.strip, c.advance 1)
  | _ => none

/-- What stands at the front of a heading about how far the lines are indented. -/
def takeIncrement (c : Cursor) : Except ReadError (Option Nat × Cursor) :=
  match c.rest with
  | d :: _ =>
      if d = '0' then .error .malformed
      else if d.isDigit then .ok (some (d.toNat - 48), c.advance 1)
      else .ok (none, c)
  | [] => .ok (none, c)

/-- The heading after the mark of a scalar in block style, in either order, and where the next line
begins. -/
def takeHeading (c : Cursor) : Except ReadError (Chomping × Option Nat × Cursor) := do
  let (chomping, increment, c) ← match takeChomping? c with
    | some (chomping, c) => do
        let (increment, c) ← takeIncrement c
        pure (chomping, increment, c)
    | none => do
        let (increment, c) ← takeIncrement c
        match increment, takeChomping? c with
        | some n, some (chomping, c) => pure (chomping, some n, c)
        | _, _ => pure (Chomping.clip, increment, c)
  if !isWordEnd c.rest then throw .malformed
  match c.endLine? with
  | some c => pure (chomping, increment, c)
  | none => throw .malformed

/-- Passes empty lines and the blanks of the line below, up to a column: the breaks, and where the
words begin. -/
def skipEmptyLines (column : Nat) (c : Cursor) : Nat → List Char × Cursor
  | 0 => ([], c)
  | fuel + 1 =>
      let blanks := (c.rest.takeWhile (· == ' ')).length
      let c := c.advance (min blanks (column - c.column))
      match c.lineBreak? with
      | none => ([], c)
      | some (b, next) =>
          let (breaks, last) := skipEmptyLines column next fuel
          (b :: breaks, last)

/-- Passes empty lines and the blanks of the line below: the breaks, the widest of these lines, and
where the words begin. -/
def measureEmptyLines (widest : Nat) (c : Cursor) : Nat → List Char × Nat × Cursor
  | 0 => ([], widest, c)
  | fuel + 1 =>
      let c := c.skip (· == ' ')
      let widest := max widest c.column
      match c.lineBreak? with
      | none => ([], widest, c)
      | some (b, next) =>
          let (breaks, widest, last) := measureEmptyLines widest next fuel
          (b :: breaks, widest, last)

/-- Whether a line goes on with the line above when lines are folded: neither begins with a gap. -/
def isFoldable (cs : List Char) : Bool :=
  !((cs.head?.map isGap).getD false)

/-- The lines at a column after the breaks of the empty lines above them. -/
def takeBlockLines (folded : Bool) (chomping : Chomping) (column : Nat) (breaks : List Char)
    (c : Cursor) : Nat → List Char × Cursor
  | 0 => ([], c)
  | fuel + 1 =>
      let words := c.rest.takeWhile fun x => !isBreak x
      let line := c.advance words.length
      let (end_, next) := match line.lineBreak? with
        | some (b, next) => ([b], next)
        | none => ([], line)
      let (below, next) := skipEmptyLines column next (next.rest.length + 1)
      if next.column = column ∧ !next.rest.isEmpty then
        let joint :=
          if folded && end_ == ['\n'] && isFoldable words && isFoldable next.rest then
            if below.isEmpty then [' '] else []
          else end_
        let (more, last) := takeBlockLines folded chomping column below next fuel
        (breaks ++ words ++ joint ++ more, last)
      else
        let kept := match chomping with
          | .clip => end_
          | .keep => end_ ++ below
          | .strip => []
        (breaks ++ words ++ kept, next)

/-- A scalar in block style after its mark, within a block at a column less than `indent`: its
content, and where it ends. -/
def takeBlockScalar (folded : Bool) (indent : Nat) (c : Cursor) :
    Except ReadError (List Char × Cursor) := do
  let (chomping, increment, c) ← takeHeading c
  let least := max indent 1
  let fuel := c.rest.length + 1
  let (breaks, column, c) := match increment with
    | some n =>
        let column := least + n - 1
        let (breaks, c) := skipEmptyLines column c fuel
        (breaks, column, c)
    | none =>
        let (breaks, widest, c) := measureEmptyLines 0 c fuel
        (breaks, max least widest, c)
  if c.column = column ∧ !c.rest.isEmpty then
    pure (takeBlockLines folded chomping column breaks c fuel)
  else
    pure (if chomping = .keep then breaks else [], c)

end Yaml
end ExprLang
