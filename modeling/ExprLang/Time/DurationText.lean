import ExprLang.Number.Decimal
import ExprLang.Number.FloatText
import ExprLang.Text.Blank
import ExprLang.Text.Digit
import ExprLang.Text.Quoted
import ExprLang.Time.Timestamp

/-!
# The compact notation of durations

A duration is written as parts of a number and a unit: `1h30m`, `1.5s`, `250ms`.  `Duration.text`
writes the canonical form; `Duration.read` takes any sequence of parts, digits of any script, and
truncates what is finer than a microsecond.
-/

namespace ExprLang
namespace Time

/-- Why a text is not a duration. -/
inductive DurationError where
  | invalid (text : String)
  | outOfRange (text : String)
  | tooManyDigits (count : Nat)
deriving DecidableEq, Repr

/-- The wording of an error. -/
def DurationError.message : DurationError → String
  | .invalid text => "invalid duration " ++ Text.Quoted.text text
  | .outOfRange text => "duration out of range: " ++ Text.Quoted.text text
  | .tooManyDigits count => Number.tooManyDigitsMessage count

/-- The unit at the front of a text: its nanoseconds, and what follows it. -/
def takeUnit? : List Char → Option (Nat × List Char)
  | 'h' :: rest => some (3600000000000, rest)
  | 'm' :: 's' :: rest => some (1000000, rest)
  | 'm' :: rest => some (60000000000, rest)
  | 's' :: rest => some (1000000000, rest)
  | 'u' :: 's' :: rest => some (1000, rest)
  | 'µ' :: 's' :: rest => some (1000, rest)
  | 'μ' :: 's' :: rest => some (1000, rest)
  | 'n' :: 's' :: rest => some (1, rest)
  | _ => none

/-- One part of a duration: the digits before and after the point, and the unit. -/
structure Part where
  whole : List Char
  fraction : List Char
  unit : Nat

/-- The part at the front of a text, and what follows it. -/
def takePart? (cs : List Char) : Option (Part × List Char) :=
  let whole := cs.takeWhile Text.isDecimalDigit
  let afterWhole := cs.dropWhile Text.isDecimalDigit
  let (fraction, afterNumber) :=
    match afterWhole with
    | '.' :: rest => (rest.takeWhile Text.isDecimalDigit, rest.dropWhile Text.isDecimalDigit)
    | rest => ([], rest)
  if whole.isEmpty && fraction.isEmpty then
    none
  else
    (takeUnit? afterNumber).map fun (unit, rest) => (⟨whole, fraction, unit⟩, rest)

/-- The number of a run of digits of any script; an empty run is zero. -/
def readDigits (digits : List Char) : Except DurationError Nat :=
  if digits.length > Number.integerDigitLimit then
    .error (.tooManyDigits digits.length)
  else
    .ok (digits.foldl (fun n c => 10 * n + (Text.digitValue? c).getD 0) 0)

/-- The nanoseconds of a part, truncated. -/
def Part.nanos (p : Part) : Except DurationError Nat := do
  let whole ← readDigits p.whole
  let fraction ← readDigits p.fraction
  pure (whole * p.unit + fraction * p.unit / Nat.pow 10 p.fraction.length)

/-- The nanoseconds of a sequence of parts.  Every part is longer than one character, so the
length of the text bounds their number. -/
def readParts (text : String) : Nat → List Char → Except DurationError Nat
  | _, [] => .ok 0
  | 0, _ :: _ => .error (.invalid text)
  | fuel + 1, cs =>
      match takePart? cs with
      | none => .error (.invalid text)
      | some (part, rest) => do
          let first ← part.nanos
          let others ← readParts text fuel rest
          pure (first + others)

namespace Duration

/-- Reads a duration, whitespace around it aside. -/
def read (text : String) : Except DurationError Duration :=
  let (negative, body) := Number.takeSign (Text.strip text.toList)
  if body = ['0'] then
    .ok zero
  else if body.isEmpty then
    .error (.invalid text)
  else do
    let nanos ← readParts text body.length body
    let micros : Int := (nanos / 1000 : Nat)
    match ofMicros? micros, ofMicros? (if negative then -micros else micros) with
    | some _, some d => pure d
    | _, _ => throw (.outOfRange text)

/-- A number with a fraction of at most `width` digits, without zeros at its end. -/
def fractionText (whole fraction width : Nat) : String :=
  if fraction = 0 then
    Number.natText whole
  else
    Number.natText whole ++ "." ++
      String.ofList (Number.dropTrailingZeros (Number.padded width fraction).toList)

/-- The canonical text of a number of microseconds that is not zero. -/
def magnitudeText (us : Nat) : String :=
  if us < 1000 then
    Number.natText us ++ "µs"
  else if us < 1000000 then
    fractionText (us / 1000) (us % 1000) 3 ++ "ms"
  else
    let hours := us / 3600000000
    let minutes := us / 60000000 % 60
    let seconds := us / 1000000 % 60
    (if hours = 0 then "" else Number.natText hours ++ "h") ++
      (if hours = 0 ∧ minutes = 0 then "" else Number.natText minutes ++ "m") ++
      fractionText seconds (us % 1000000) 6 ++ "s"

/-- The canonical text of a duration. -/
def text (d : Duration) : String :=
  if d.micros = 0 then "0s"
  else (if d.micros < 0 then "-" else "") ++ magnitudeText d.micros.natAbs

/-- A duration as days and a clock, the days left out where there are none; only the days may be
negative. -/
def clockText (d : Duration) : String :=
  let days := d.micros / dayMicros
  let c := clockOfMicros (d.micros % dayMicros).toNat
  let plural := if days.natAbs = 1 then "" else "s"
  (if days = 0 then "" else Number.intText days ++ " day" ++ plural ++ ", ") ++
    Number.natText c.hour ++ ":" ++ Number.padded 2 c.minute ++ ":" ++ Number.padded 2 c.second ++
    (if c.micro = 0 then "" else "." ++ Number.padded 6 c.micro)

end Duration
end Time
end ExprLang
