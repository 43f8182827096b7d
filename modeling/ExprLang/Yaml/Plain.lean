import ExprLang.Yaml.Cursor

/-!
# Scalars without quotes

A plain scalar ends where something else could begin.  It may go on over several lines, as long as
they lie right of the block around it.
-/

namespace ExprLang
namespace Yaml

/-- Whether a plain scalar ends before these characters. -/
def endsPlain (flow : Bool) : List Char → Bool
  | [] => true
  | ':' :: rest =>
      isBoundary rest || (flow && (rest.head?.map fun c => ",[]{}".toList.contains c).getD true)
  | c :: rest => isBoundary (c :: rest) || (flow && ",?[]{}".toList.contains c)

/-- The length of a word of a plain scalar. -/
def plainLength (flow : Bool) : List Char → Nat
  | [] => 0
  | c :: rest => if endsPlain flow (c :: rest) then 0 else plainLength flow rest + 1

/-- Passes the blanks and empty lines inside a plain scalar, and gives the further breaks in it.
Nothing comes back when a mark that bounds a document is met. -/
def skipPlainBreaks (c : Cursor) : Nat → Option (List Char × Cursor)
  | 0 => some ([], c)
  | fuel + 1 =>
      let c := c.skip (· == ' ')
      match c.lineBreak? with
      | none => some ([], c)
      | some (b, c) =>
          if isDocumentMark c.rest then none
          else (skipPlainBreaks c fuel).map fun (breaks, c) => (b :: breaks, c)

/-- The gap after a word of a plain scalar: what it is read as, whether it holds a break, and where
it ends.  Without a text to go on with, it is read as nothing. -/
def plainGap (c : Cursor) : List Char × Bool × Cursor :=
  let gap := c.rest.takeWhile (· == ' ')
  let c := c.advance gap.length
  match c.lineBreak? with
  | none => (gap, false, c)
  | some (b, c) =>
      if isDocumentMark c.rest then ([], true, c)
      else
        match skipPlainBreaks c c.rest.length with
        | none => ([], true, c)
        | some (further, c) => (foldBreaks b further, true, c)

/-- The words of a plain scalar that lies right of a block, whether its last gap holds a break, and
where it ends. -/
def takePlain (flow : Bool) (indent : Nat) (broken : Bool) (c : Cursor) :
    Nat → List Char × Bool × Cursor
  | 0 => ([], broken, c)
  | fuel + 1 =>
      if c.rest.head? == some '#' then ([], broken, c)
      else
        let count := plainLength flow c.rest
        if count = 0 then ([], broken, c)
        else
          let word := c.rest.take count
          let (gap, broken, next) := plainGap (c.advance count)
          if gap.isEmpty || next.rest.head? == some '#' || (!flow && next.column < indent) then
            (word, broken, next)
          else
            let (more, broken, last) := takePlain flow indent broken next fuel
            if more.isEmpty then (word, broken, last) else (word ++ gap ++ more, broken, last)

end Yaml
end ExprLang
