import ExprLang.Number.FloatText
import ExprLang.Time.TimestampText
import ExprLang.Toml.Content

/-!
# Dates and clocks in a TOML text

The parts of a date are read by their places, whatever stands between them.  An offset that cannot be
read is none, and the fraction of a clock without a date counts as microseconds as it is written.
-/

namespace ExprLang
namespace Toml

/-! ### Clocks -/

/-- Two ASCII digits at the front of a text. -/
def takePair? : List Char → Option (Nat × List Char)
  | a :: b :: rest =>
      if a.isDigit && b.isDigit then some (Number.digitsValue [a, b], rest) else none
  | _ => none

/-- A colon at the front of a text. -/
def takeColon? : List Char → Option (List Char)
  | ':' :: rest => some rest
  | _ => none

/-- The microseconds after a clock: three to six digits after a point, or none. -/
def clockMicros : List Char → Nat
  | '.' :: rest =>
      let digits := (rest.take 6).takeWhile Char.isDigit
      if digits.length < 3 then 0 else Number.digitsValue digits
  | _ => 0

/-- The clock at the front of a text, not yet checked. -/
def clockAt? (cs : List Char) : Option Time.Clock := do
  let (hour, rest) ← takePair? cs
  let (minute, rest) ← takePair? (← takeColon? rest)
  let (second, rest) ← takePair? (← takeColon? rest)
  some ⟨hour, minute, second, clockMicros rest⟩

/-- Whether a clock exists. -/
def isClock (c : Time.Clock) : Bool :=
  c.hour < 24 && c.minute < 60 && c.second < 60 && c.micro < 1000000

/-! ### Dates -/

/-- An offset in microseconds: `Z`, or a sign, hours and minutes by their places. -/
def offset? (cs : List Char) : Option Int := do
  let cs := if cs = ['Z'] then "+00:00".toList else cs
  let hours ← Number.readInt? ((cs.drop 1).take 2)
  let minutes ← Number.readInt? ((cs.drop 4).take 2)
  let micros := (hours * 60 + minutes) * 60000000
  some (if cs.head? = some '-' then -micros else micros)

/-- The microseconds of a fraction of a second.  Digits past the sixth are cut off after a
multiplication of floats. -/
def fractionMicros? (cs : List Char) : Except ReadError (Option Int) :=
  if Number.integerDigitLimit < cs.length then .ok none
  else
    match Number.readInt? cs with
    | none => .ok none
    | some n =>
        if cs.length ≤ 6 then .ok (some (n * Nat.pow 10 (6 - cs.length)))
        else
          let whole := Number.nearestFloat n.natAbs 0
          let unit := Number.nearestFloat 1 (6 - (cs.length : Int))
          if Number.isInfinite whole then .error .fractionTooLarge
          else
            let micros := ((Number.dyadic? (whole * unit)).map (·.truncate)).getD 0
            .ok (some (if n < 0 then -micros else micros))

/-- The fraction and the offset in what follows the point after the seconds. -/
def splitFraction (cs : List Char) : List Char × Option (List Char) :=
  let last := cs.getLast?
  if last = some 'Z' ∨ last = some 'z' then (cs.dropLast, some ['Z'])
  else
    let mark := if cs.contains '+' then '+' else '-'
    if cs.contains mark then (cs.takeWhile (· != mark), some (cs.dropWhile (· != mark)))
    else (cs, none)

/-- The offset and the microseconds in what follows the seconds of a date.  Where one of them cannot
be read there is neither. -/
def readTail (cs : List Char) : Except ReadError (Option Int × Int) := do
  match cs with
  | [] => pure (none, 0)
  | '.' :: rest =>
      let (fraction, zone) := splitFraction rest
      match zone.map offset? with
      | some none => pure (none, 0)
      | zone =>
          match ← fractionMicros? fraction with
          | none => pure (none, 0)
          | some micros => pure (zone.join, micros)
  | rest => pure (offset? rest, 0)

/-- The number at some place of a text. -/
def numberAt? (cs : List Char) (place count : Nat) : Option Nat :=
  match Number.readInt? ((cs.drop place).take count) with
  | some (.ofNat n) => some n
  | _ => none

/-- The date in the first ten characters of a text. -/
def dateAt? (cs : List Char) : Option Time.Date := do
  let date : Time.Date := ⟨← numberAt? cs 0 4, ← numberAt? cs 5 2, ← numberAt? cs 8 2⟩
  if date.exists then some date else none

/-- The date and the clock in the first nineteen characters of a text. -/
def momentAt? (cs : List Char) (micros offset : Int) : Option Time.Timestamp := do
  let date ← dateAt? cs
  let clock : Time.Clock :=
    ⟨← numberAt? cs 11 2, ← numberAt? cs 14 2, ← numberAt? cs 17 2, micros.toNat⟩
  if isClock clock ∧ 0 ≤ micros then Time.Timestamp.ofFields? date clock offset else none

/-- Reads a date, with a clock unless it is ten characters long. -/
def readDate (cs : List Char) : Except ReadError (Option Content) := do
  let (offset, micros) ← readTail (cs.drop 19)
  if !(cs.drop 1).contains '-' then pure none
  else if cs.length = 10 then pure ((dateAt? cs).map Content.date)
  else pure ((momentAt? cs micros 0).map fun t => .moment t offset)

end Toml
end ExprLang
