import ExprLang.Time.TimestampText
import ExprLang.Yaml.Cursor

/-!
# Dates in a YAML text

A date has a month and a day of one digit or two, and a clock may follow it.  Where nothing else
marks it as a date, one without a clock has two digits for each: `isMoment` tells whether a spelling
is a date of its own.
-/

namespace ExprLang
namespace Yaml

/-- One or two ASCII digits at the front of a text. -/
def takeShort? : List Char → Option (List Char × List Char)
  | a :: b :: rest =>
      if a.isDigit then if b.isDigit then some ([a, b], rest) else some ([a], b :: rest) else none
  | [a] => if a.isDigit then some ([a], []) else none
  | [] => none

/-- A number of ASCII digits at the front of a text. -/
def takeFixed? (count : Nat) (cs : List Char) : Option (List Char × List Char) :=
  if (cs.take count).length = count ∧ (cs.take count).all Char.isDigit then
    some (cs.take count, cs.drop count)
  else none

/-- A character at the front of a text. -/
def takeMark? (mark : Char) : List Char → Option (List Char)
  | c :: rest => if c = mark then some rest else none
  | [] => none

/-- The offset at the end of a date with a clock. -/
def readOffset? (cs : List Char) : Option (Option (Bool × List (List Char))) :=
  match cs.dropWhile isGap with
  | [] => if cs.isEmpty then some none else none
  | ['Z'] => some (some (false, []))
  | sign :: rest =>
      if sign = '+' ∨ sign = '-' then do
        let (hour, rest) ← takeShort? rest
        match rest with
        | [] => some (some (sign == '-', [hour]))
        | _ => do
            let (minute, rest) ← takeFixed? 2 (← takeMark? ':' rest)
            if rest.isEmpty then some (some (sign == '-', [hour, minute])) else none
      else none

/-- The clock after a date: hours, minutes, seconds, perhaps a fraction and an offset. -/
def readClock? (date : Time.Fields) (cs : List Char) : Option Time.Fields := do
  let (hour, rest) ← takeShort? cs
  let (minute, rest) ← takeFixed? 2 (← takeMark? ':' rest)
  let (second, rest) ← takeFixed? 2 (← takeMark? ':' rest)
  let (fraction, rest) := match rest with
    | '.' :: more => (more.takeWhile Char.isDigit, more.dropWhile Char.isDigit)
    | _ => ([], rest)
  let offset ← readOffset? rest
  some { date with clock := [hour, minute, second], fraction := fraction, offset := offset }

/-- The fields of a date, with a clock or without. -/
def readMoment? (cs : List Char) : Option Time.Fields := do
  let (year, rest) ← takeFixed? 4 cs
  let (month, rest) ← takeShort? (← takeMark? '-' rest)
  let (day, rest) ← takeShort? (← takeMark? '-' rest)
  let date : Time.Fields := ⟨year, month, day, [], [], none⟩
  match rest with
  | [] => some date
  | c :: more =>
      if c = 'T' ∨ c = 't' then readClock? date more
      else if isGap c then readClock? date (more.dropWhile isGap)
      else none

/-- Whether a spelling is that of a date. -/
def isMoment (cs : List Char) : Bool :=
  match readMoment? cs with
  | none => false
  | some f => !f.clock.isEmpty || (f.month.length == 2 && f.day.length == 2)

end Yaml
end ExprLang
