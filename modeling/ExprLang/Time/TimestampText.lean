import ExprLang.Number.FloatText
import ExprLang.Text.Blank
import ExprLang.Text.Digit
import ExprLang.Text.Quoted
import ExprLang.Time.Timestamp

/-!
# The text of timestamps

Timestamps are written with date, clock and offset, as in `2023-05-28T10:20:30.5+02:00`.
`Timestamp.text` writes microseconds only where they are not zero, and the seconds of an offset
likewise.  `Timestamp.read` takes RFC 3339, where the offset is `Z` or hours and minutes; digits
finer than a microsecond are dropped.  `Timestamp.ofText?` reads what `Timestamp.text` writes, also
without an offset.
-/

namespace ExprLang
namespace Time

/-- Why a text is not a timestamp. -/
inductive TimestampError where
  | invalid (text : String)
  | unreadable (text : String)
  | badOffset (micros : Int)
  | badYear (number : Nat)
  | badMonth
  | badDay
  | badHour
  | badMinute
  | badSecond
deriving DecidableEq, Repr

/-- A length of time as days, seconds of a day and microseconds of a second; only days may be
negative, and parts that are zero are left out. -/
def lengthParts (micros : Int) : String :=
  let days := micros / 86400000000
  let rest := micros % 86400000000
  let parts :=
    (if days = 0 then [] else ["days=" ++ Number.intText days]) ++
    (if rest / 1000000 = 0 then [] else ["seconds=" ++ Number.intText (rest / 1000000)]) ++
    (if rest % 1000000 = 0 then [] else ["microseconds=" ++ Number.intText (rest % 1000000)])
  if parts.isEmpty then "0" else ", ".intercalate parts

/-- A length of time as messages show it. -/
def describeLength (micros : Int) : String :=
  "datetime.timedelta(" ++ lengthParts micros ++ ")"

/-- The wording of an error. -/
def TimestampError.message : TimestampError → String
  | .invalid text => "invalid timestamp " ++ Text.Quoted.text text
  | .unreadable text => "Invalid isoformat string: " ++ Text.Quoted.text text
  | .badOffset micros =>
      "offset must be a timedelta strictly between -timedelta(hours=24) and " ++
        "timedelta(hours=24), not " ++ describeLength micros ++ "."
  | .badYear number => "year " ++ Number.natText number ++ " is out of range"
  | .badMonth => "month must be in 1..12"
  | .badDay => "day is out of range for month"
  | .badHour => "hour must be in 0..23"
  | .badMinute => "minute must be in 0..59"
  | .badSecond => "second must be in 0..59"

/-- An offset: sign, hours and minutes, then seconds and microseconds where they are not zero. -/
def offsetText (offset : Int) : String :=
  let c := clockOfMicros offset.natAbs
  (if offset < 0 then "-" else "+") ++ Number.padded 2 c.hour ++ ":" ++ Number.padded 2 c.minute ++
    (if c.second = 0 ∧ c.micro = 0 then "" else ":" ++ Number.padded 2 c.second) ++
    (if c.micro = 0 then "" else "." ++ Number.padded 6 c.micro)

/-- A date. -/
def Date.text (date : Date) : String :=
  Number.padded 4 date.year ++ "-" ++ Number.padded 2 date.month ++ "-" ++ Number.padded 2 date.day

/-- A clock: hours, minutes and seconds, then microseconds where they are not zero. -/
def Clock.text (c : Clock) : String :=
  Number.padded 2 c.hour ++ ":" ++ Number.padded 2 c.minute ++ ":" ++ Number.padded 2 c.second ++
    (if c.micro = 0 then "" else "." ++ Number.padded 6 c.micro)

/-- The microseconds of a fraction of a second; digits past the sixth are dropped. -/
def fractionMicros (digits : List Char) : Nat :=
  Number.digitsValue ((digits ++ List.replicate 6 '0').take 6)

/-- Takes `count` decimal digits of any script off a text. -/
def takeDigits? (count : Nat) (cs : List Char) : Option (List Char × List Char) :=
  let digits := cs.take count
  if digits.length = count ∧ digits.all Text.isDecimalDigit then some (digits, cs.drop count)
  else none

/-- Takes one character of a set off a text. -/
def takeOneOf? (allowed : List Char) : List Char → Option (Char × List Char)
  | [] => none
  | c :: rest => if allowed.contains c then some (c, rest) else none

/-- Takes two-digit fields off a text, a mark standing between them. -/
def takePairs? (mark : Char) : Nat → List Char → Option (List (List Char) × List Char)
  | 0, cs => some ([], cs)
  | 1, cs => do
      let (pair, rest) ← takeDigits? 2 cs
      some ([pair], rest)
  | count + 1, cs => do
      let (pair, rest) ← takeDigits? 2 cs
      let (_, rest) ← takeOneOf? [mark] rest
      let (pairs, rest) ← takePairs? mark count rest
      some (pair :: pairs, rest)

/-- The digits of a timestamp, not yet checked. -/
structure Fields where
  year : List Char
  month : List Char
  day : List Char
  clock : List (List Char)
  fraction : List Char
  /-- The sign of the offset and its fields; `none` without an offset. -/
  offset : Option (Bool × List (List Char))

/-- A fraction after a point, of one digit or more; without a point there is none. -/
def takeFraction? : List Char → Option (List Char × List Char)
  | '.' :: rest =>
      let digits := rest.takeWhile Text.isDecimalDigit
      if digits.isEmpty then none else some (digits, rest.dropWhile Text.isDecimalDigit)
  | rest => some ([], rest)

/-- The date and the clock at the front of a timestamp, and what follows them. -/
def takeReading? (separators cs : List Char) : Option (Fields × List Char) := do
  let (year, rest) ← takeDigits? 4 cs
  let (_, rest) ← takeOneOf? ['-'] rest
  let (month, rest) ← takeDigits? 2 rest
  let (_, rest) ← takeOneOf? ['-'] rest
  let (day, rest) ← takeDigits? 2 rest
  let (_, rest) ← takeOneOf? separators rest
  let (clock, rest) ← takePairs? ':' 3 rest
  let (fraction, rest) ← takeFraction? rest
  some (⟨year, month, day, clock, fraction, none⟩, rest)

/-- The fields of an RFC 3339 timestamp. -/
def rfc3339? (cs : List Char) : Option Fields := do
  let (fields, rest) ← takeReading? ['T', 't', ' '] cs
  let (mark, rest) ← takeOneOf? ['Z', 'z', '+', '-'] rest
  if mark = 'Z' ∨ mark = 'z' then
    if rest.isEmpty then some { fields with offset := some (false, []) } else none
  else
    let (pairs, rest) ← takePairs? ':' 2 rest
    if rest.isEmpty then some { fields with offset := some (mark == '-', pairs) } else none

/-- Whether every digit that counts is an ASCII digit. -/
def Fields.isAscii (f : Fields) : Bool :=
  let all := f.year ++ f.month ++ f.day ++ f.clock.flatten ++
    (f.fraction ++ List.replicate 6 '0').take 6 ++ ((f.offset.map (·.2.flatten)).getD [])
  all.all Char.isDigit

/-- The number of a field by its place, zero where there is none. -/
def fieldValue (fields : List (List Char)) (place : Nat) : Nat :=
  Number.digitsValue (fields.getD place [])

/-- The offset that was read, in microseconds; a fourth field holds microseconds. -/
def Fields.offsetMicros (f : Fields) : Int :=
  match f.offset with
  | none => 0
  | some (negative, pairs) =>
      let seconds := (fieldValue pairs 0 * 60 + fieldValue pairs 1) * 60 + fieldValue pairs 2
      let micros : Int := seconds * 1000000 + fieldValue pairs 3
      if negative then -micros else micros

/-- The date that was read. -/
def Fields.date (f : Fields) : Date :=
  ⟨Number.digitsValue f.year, Number.digitsValue f.month, Number.digitsValue f.day⟩

/-- The clock that was read. -/
def Fields.clockReading (f : Fields) : Clock :=
  ⟨fieldValue f.clock 0, fieldValue f.clock 1, fieldValue f.clock 2, fractionMicros f.fraction⟩

/-- Checks the fields, the offset first and then from the year to the second. -/
def Fields.check (f : Fields) : Except TimestampError Timestamp :=
  let date := f.date
  let clock := f.clockReading
  if f.offsetMicros ≤ -86400000000 ∨ 86400000000 ≤ f.offsetMicros then
    .error (.badOffset f.offsetMicros)
  else if date.year < 1 ∨ 9999 < date.year then .error (.badYear date.year)
  else if date.month < 1 ∨ 12 < date.month then .error .badMonth
  else if date.day < 1 ∨ daysInMonth date.year date.month < date.day then .error .badDay
  else if 23 < clock.hour then .error .badHour
  else if 59 < clock.minute then .error .badMinute
  else if 59 < clock.second then .error .badSecond
  else
    match Timestamp.ofFields? date clock f.offsetMicros with
    | some t => .ok t
    | none => .error (.badYear date.year)

namespace Timestamp

/-- The text of a timestamp. -/
def text (t : Timestamp) : String :=
  t.date.text ++ "T" ++ t.clock.text ++ offsetText t.offset

/-- The fields in the notation that a checked timestamp is rebuilt from. -/
def rebuiltText (f : Fields) : String :=
  let sign : List Char :=
    match f.offset with
    | some (true, _) => ['-']
    | _ => ['+']
  let zone :=
    match f.offset with
    | some (_, [hours, minutes]) => hours ++ ':' :: minutes
    | _ => "00:00".toList
  String.ofList (f.year ++ '-' :: f.month ++ '-' :: f.day ++ 'T' ::
    [':'].intercalate f.clock ++ '.' :: (f.fraction ++ List.replicate 6 '0').take 6 ++ sign ++ zone)

/-- Reads an RFC 3339 timestamp, whitespace around it aside. -/
def read (text : String) : Except TimestampError Timestamp :=
  match rfc3339? (Text.strip text.toList) with
  | none => .error (.invalid text)
  | some fields =>
      if fields.isAscii then fields.check else .error (.unreadable (rebuiltText fields))

/-- The fields of an offset: hours and minutes, then perhaps seconds, then perhaps a fraction. -/
def takeOffset? : List Char → Option (Option (Bool × List (List Char)))
  | [] => some none
  | sign :: rest =>
      if sign = '+' ∨ sign = '-' then do
        let (pairs, rest) ← (takePairs? ':' 3 rest).orElse fun _ => takePairs? ':' 2 rest
        let (fraction, rest) ← takeFraction? rest
        let fields := if fraction.isEmpty then pairs else pairs ++ [fraction]
        if rest.isEmpty then some (some (sign == '-', fields)) else none
      else
        none

/-- Reads the text of a timestamp, and tells whether it names an offset; without one the offset is
zero. -/
def ofText? (text : String) : Option (Timestamp × Bool) := do
  let (fields, rest) ← takeReading? ['T'] text.toList
  let offset ← takeOffset? rest
  match { fields with offset := offset }.check with
  | .ok t => some (t, offset.isSome)
  | .error _ => none

end Timestamp
end Time
end ExprLang
