import ExprLang.Proofs.DurationReading
import ExprLang.Stdlib.Conversions

/-!
# The notation of durations

Which texts are durations, and which durations they are, is said by a grammar of its own: a sign,
and either a lone zero or parts, each a number and a unit.  Reading takes exactly these texts, as
long as their digits are those of ASCII and no run of digits is too long to be read.

* `takePart?_number`, `takePart?_sound`: one part, in both directions.
* `reads_of_isParts`, `readParts_cases`: a sequence of parts.
* `Duration.read_notation`: what is read, what is refused, and the opposite of a duration.
-/

namespace ExprLang
namespace Time

open Number Text

/-! ### The grammar -/

/-- The units of durations and the nanoseconds that they have. -/
def units : List (List Char × Nat) := [
  (['h'], 3600000000000), (['m'], 60000000000), (['s'], 1000000000), (['m', 's'], 1000000),
  (['u', 's'], 1000), (['µ', 's'], 1000), (['μ', 's'], 1000), (['n', 's'], 1)]

/-- The signs in front of a duration. -/
def signs : List (List Char × Int) := [([], 1), (['+'], 1), (['-'], -1)]

/-- A number as its digits before and after the point; the point needs digits on one side. -/
inductive IsNumber : List Char → List Char → List Char → Prop
  | integer {whole : List Char} :
      IsRun whole →
      IsNumber whole whole []
  | decimal {whole fraction : List Char} :
      IsRun whole →
      (∀ c ∈ fraction, c.isDigit = true) →
      IsNumber (whole ++ '.' :: fraction) whole fraction
  | fraction {fraction : List Char} :
      IsRun fraction →
      IsNumber ('.' :: fraction) [] fraction

/-- A sequence of parts and its nanoseconds, those of each part rounded down. -/
inductive IsParts : List Char → Nat → Prop
  | nil : IsParts [] 0
  | part {number whole fraction unit rest : List Char} {scale nanos : Nat} :
      IsNumber number whole fraction →
      (unit, scale) ∈ units →
      IsParts rest nanos →
      IsParts (number ++ (unit ++ rest))
        (digitsValue whole * scale + digitsValue fraction * scale / 10 ^ fraction.length + nanos)

/-- A duration without its sign, and its nanoseconds. -/
def IsMagnitude (body : List Char) (nanos : Nat) : Prop :=
  body = ['0'] ∧ nanos = 0 ∨ body ≠ [] ∧ IsParts body nanos

/-- A text without blanks around it, and the microseconds that it denotes: those of its parts are
rounded down, and then the sign is put in front. -/
def Denotes (text : List Char) (micros : Int) : Prop :=
  ∃ sign factor body nanos, (sign, factor) ∈ signs ∧ text = sign ++ body ∧
    IsMagnitude body nanos ∧ micros = factor * (nanos / 1000 : Nat)

/-- Texts whose digits are those of ASCII, in runs that are short enough to be read. -/
structure Legible (cs : List Char) : Prop where
  ascii : ∀ c ∈ cs, isDecimalDigit c = true → c.isDigit = true
  short : ∀ run, run <:+: cs → (∀ c ∈ run, c.isDigit = true) → run.length ≤ integerDigitLimit

theorem Legible.infix
    {part cs : List Char}
    (legible : Legible cs)
    (inside : part <:+: cs) :
    Legible part :=
  ⟨fun c member => legible.ascii c (inside.subset member),
    fun run within => legible.short run (within.trans inside)⟩

/-! ### One part -/

theorem isUnit_of_mem
    {unit rest : List Char} {scale : Nat}
    (member : (unit, scale) ∈ units)
    (apart : 's' ∉ rest.head?) :
    IsUnit unit rest scale := by
  simp only [units, List.mem_cons, List.not_mem_nil, or_false, Prod.mk.injEq] at member
  rcases member with ⟨rfl, rfl⟩ | ⟨rfl, rfl⟩ | ⟨rfl, rfl⟩ | ⟨rfl, rfl⟩ | ⟨rfl, rfl⟩ | ⟨rfl, rfl⟩ |
    ⟨rfl, rfl⟩ | ⟨rfl, rfl⟩
  case inr.inl => exact isUnit_minute apart
  all_goals exact isUnit_of_letter (by decide) rfl

theorem takeUnit?_sound
    {cs rest : List Char} {scale : Nat}
    (taken : takeUnit? cs = some (scale, rest)) :
    ∃ unit, (unit, scale) ∈ units ∧ cs = unit ++ rest := by
  unfold takeUnit? at taken
  split at taken
  case h_9 => cases taken
  all_goals
    obtain ⟨rfl, rfl⟩ := Prod.mk.inj (Option.some.inj taken)
    first
    | refine ⟨[_], ?_, rfl⟩
      simp [units]
    | refine ⟨[_, _], ?_, rfl⟩
      simp [units]

theorem IsNumber.digits
    {number whole fraction : List Char}
    (isNumber : IsNumber number whole fraction) :
    (∀ c ∈ whole, c.isDigit = true) ∧ ∀ c ∈ fraction, c.isDigit = true := by
  cases isNumber with
  | integer run => exact ⟨run.2, by simp⟩
  | decimal run digits => exact ⟨run.2, digits⟩
  | fraction run => exact ⟨by simp, run.2⟩

theorem IsNumber.infix
    {number whole fraction : List Char}
    (isNumber : IsNumber number whole fraction) :
    whole <:+: number ∧ fraction <:+: number := by
  cases isNumber with
  | integer run => exact ⟨List.infix_refl _, List.nil_infix⟩
  | decimal run digits =>
      refine ⟨(List.prefix_append _ _).isInfix, ?_⟩
      exact ((List.suffix_cons '.' fraction).trans (List.suffix_append _ _)).isInfix
  | fraction run => exact ⟨List.nil_infix, (List.suffix_cons '.' fraction).isInfix⟩

/-- A number begins with a digit or with its point. -/
theorem IsNumber.begins
    {number whole fraction : List Char}
    (isNumber : IsNumber number whole fraction) :
    ∃ c rest, number = c :: rest ∧ (c.isDigit = true ∨ c = '.') := by
  have run : ∀ {digits rest : List Char}, IsRun digits →
      ∃ c more, digits ++ rest = c :: more ∧ (c.isDigit = true ∨ c = '.') := by
    intro digits rest ⟨nonempty, digit⟩
    obtain ⟨c, more, rfl⟩ := List.exists_cons_of_ne_nil nonempty
    exact ⟨c, more ++ rest, rfl, .inl (digit c (by simp))⟩
  cases isNumber with
  | integer whole =>
      rw [← List.append_nil number]
      exact run whole
  | decimal whole digits => exact run whole
  | fraction digits => exact ⟨'.', _, rfl, .inr rfl⟩

/-- A part of the grammar is taken as it stands. -/
theorem takePart?_number
    {number whole fraction unit rest : List Char} {scale : Nat}
    (isNumber : IsNumber number whole fraction)
    (isUnit : IsUnit unit rest scale) :
    takePart? (number ++ (unit ++ rest)) = some (⟨whole, fraction, scale⟩, rest) := by
  cases isNumber with
  | integer run => exact takePart?_whole run isUnit
  | decimal run digits =>
      rw [List.append_assoc]
      exact takePart?_point run.2 digits (.inl run.1) isUnit
  | fraction run => exact takePart?_point (List.forall_mem_nil _) run.2 (.inr run.1) isUnit

theorem isDigit_of_mem_takeWhile
    {cs : List Char}
    (ascii : ∀ c ∈ cs, isDecimalDigit c = true → c.isDigit = true) :
    ∀ c ∈ cs.takeWhile isDecimalDigit, c.isDigit = true :=
  fun c member => ascii c ((List.takeWhile_prefix _).subset member)
    (List.all_eq_true.mp List.all_takeWhile c member)

/-- What is taken as a part is one of the grammar. -/
theorem takePart?_sound
    {cs rest : List Char} {part : Part}
    (ascii : ∀ c ∈ cs, isDecimalDigit c = true → c.isDigit = true)
    (taken : takePart? cs = some (part, rest)) :
    ∃ number unit, IsNumber number part.whole part.fraction ∧ (unit, part.unit) ∈ units ∧
      cs = number ++ (unit ++ rest) := by
  have together : cs.takeWhile isDecimalDigit ++ cs.dropWhile isDecimalDigit = cs :=
    List.takeWhile_append_dropWhile
  have wholeDigits := isDigit_of_mem_takeWhile ascii
  rw [takePart?] at taken
  generalize cs.takeWhile isDecimalDigit = whole at *
  generalize cs.dropWhile isDecimalDigit = after at *
  subst together
  split at taken
  next fraction afterNumber number =>
  split at taken
  · cases taken
  next digits =>
  obtain ⟨⟨scale, left⟩, unitTaken, same⟩ := Option.map_eq_some_iff.mp taken
  obtain ⟨rfl, rfl⟩ := Prod.mk.inj same
  obtain ⟨unit, member, rfl⟩ := takeUnit?_sound unitTaken
  split at number
  · next more =>
      obtain ⟨rfl, behind⟩ := Prod.mk.inj number
      have split : more.takeWhile isDecimalDigit ++ more.dropWhile isDecimalDigit = more :=
        List.takeWhile_append_dropWhile
      have fractionDigits := isDigit_of_mem_takeWhile fun c (inside : c ∈ more) =>
        ascii c (by simp [inside])
      generalize more.takeWhile isDecimalDigit = fraction at *
      rw [behind] at split
      subst split
      by_cases none : whole = []
      · subst none
        exact ⟨_, unit, .fraction ⟨by simpa using digits, fractionDigits⟩, member, rfl⟩
      · exact ⟨_, unit, .decimal ⟨none, wholeDigits⟩ fractionDigits, member, by simp⟩
  · obtain ⟨rfl, rfl⟩ := Prod.mk.inj number
    exact ⟨whole, unit, .integer ⟨by simpa using digits, wholeDigits⟩, member, rfl⟩

theorem nanos_of_legible
    {number whole fraction rest : List Char}
    (scale : Nat)
    (isNumber : IsNumber number whole fraction)
    (legible : Legible (number ++ rest)) :
    Part.nanos ⟨whole, fraction, scale⟩ =
      .ok (digitsValue whole * scale + digitsValue fraction * scale / 10 ^ fraction.length) := by
  have inside : number <:+: number ++ rest := (List.prefix_append _ _).isInfix
  obtain ⟨wholeDigits, fractionDigits⟩ := isNumber.digits
  obtain ⟨wholeInside, fractionInside⟩ := isNumber.infix
  exact nanos_of_isDigit scale wholeDigits
    (legible.short whole (wholeInside.trans inside) wholeDigits) fractionDigits
    (legible.short fraction (fractionInside.trans inside) fractionDigits)

/-! ### Sequences of parts -/

theorem Legible.behind
    {number unit rest : List Char}
    (legible : Legible (number ++ (unit ++ rest))) :
    Legible rest :=
  legible.infix ((List.suffix_append _ _).trans (List.suffix_append _ _)).isInfix

/-- Parts begin with a digit or a point, so no `s` can make another unit of the one before. -/
theorem IsParts.begins
    {cs : List Char} {nanos : Nat}
    (parts : IsParts cs nanos) :
    ∀ c ∈ cs.head?, c.isDigit = true ∨ c = '.' := by
  cases parts with
  | nil => simp
  | part isNumber =>
      obtain ⟨c, more, rfl, begins⟩ := isNumber.begins
      simpa using begins

/-- Parts of the grammar are read as what they are worth. -/
theorem reads_of_isParts
    {cs : List Char} {nanos : Nat}
    (text : String)
    (parts : IsParts cs nanos)
    (legible : Legible cs) :
    Reads text cs nanos := by
  induction parts with
  | nil => exact .nil text
  | part isNumber member others ih =>
      have noSecond := fun begins => others.begins 's' begins
      have isUnit := isUnit_of_mem member fun begins => absurd (noSecond begins) (by decide)
      obtain ⟨c, more, rfl, -⟩ := isNumber.begins
      refine Reads.cons (takePart?_number isNumber isUnit) ?_
        (nanos_of_legible _ isNumber legible) (ih legible.behind)
      simp only [List.cons_append, List.length_cons, List.length_append]
      omega

/-- What is read is a sequence of parts of the grammar, and all else is invalid. -/
theorem readParts_cases
    {cs : List Char}
    (text : String)
    (fuel : Nat)
    (legible : Legible cs) :
    (∃ nanos, readParts text fuel cs = .ok nanos ∧ IsParts cs nanos) ∨
      readParts text fuel cs = .error (.invalid text) := by
  induction fuel generalizing cs with
  | zero =>
      cases cs with
      | nil => exact .inl ⟨0, rfl, .nil⟩
      | cons c cs => exact .inr rfl
  | succ fuel ih =>
      cases cs with
      | nil => exact .inl ⟨0, rfl, .nil⟩
      | cons c cs =>
          rw [readParts]
          rcases taken : takePart? (c :: cs) with _ | ⟨part, rest⟩
          · exact .inr rfl
          obtain ⟨number, unit, isNumber, member, split⟩ := takePart?_sound legible.ascii taken
          rw [split] at legible ⊢
          have worth := nanos_of_legible part.unit isNumber legible
          rcases ih legible.behind with ⟨nanos, read, parts⟩ | refused
          · refine .inl ⟨_, ?_, .part isNumber member parts⟩
            simp only [worth, read]
            rfl
          · refine .inr ?_
            simp only [worth, refused]
            rfl
          all_goals simp

/-! ### Signs -/

/-- Without its sign a duration begins with no sign. -/
theorem IsMagnitude.unsigned
    {body : List Char} {nanos : Nat}
    (magnitude : IsMagnitude body nanos) :
    '-' ∉ body.head? ∧ '+' ∉ body.head? := by
  rcases magnitude with ⟨rfl, -⟩ | ⟨-, parts⟩
  · decide
  · constructor <;>
      · intro begins
        exact absurd (parts.begins _ begins) (by decide)

theorem takeSign_append
    {sign body : List Char} {factor : Int}
    (member : (sign, factor) ∈ signs)
    (noMinus : '-' ∉ body.head?)
    (noPlus : '+' ∉ body.head?) :
    takeSign (sign ++ body) = (decide (factor = -1), body) := by
  simp only [signs, List.mem_cons, List.not_mem_nil, or_false, Prod.mk.injEq] at member
  rcases member with ⟨rfl, rfl⟩ | ⟨rfl, rfl⟩ | ⟨rfl, rfl⟩
  · exact takeSign_unsigned noMinus noPlus
  · rfl
  · rfl

theorem takeSign_sound
    {cs body : List Char} {negative : Bool}
    (taken : takeSign cs = (negative, body)) :
    ∃ sign, (sign, if negative then -1 else 1) ∈ signs ∧ cs = sign ++ body := by
  unfold takeSign at taken
  split at taken <;> obtain ⟨rfl, rfl⟩ := Prod.mk.inj taken
  · exact ⟨['-'], by decide, rfl⟩
  · exact ⟨['+'], by decide, rfl⟩
  · exact ⟨[], by decide, rfl⟩

/-- The microseconds of a number of nanoseconds, rounded down, with a sign. -/
def signedMicros (negative : Bool) (nanos : Nat) : Int :=
  (if negative then -1 else 1) * (nanos / 1000 : Nat)

/-- What a text denotes is said by what stands behind its sign. -/
theorem denotes_iff
    {cs body : List Char} {negative : Bool} {micros : Int}
    (taken : takeSign cs = (negative, body)) :
    Denotes cs micros ↔ ∃ nanos, IsMagnitude body nanos ∧ micros = signedMicros negative nanos := by
  constructor
  · rintro ⟨sign, factor, other, nanos, member, rfl, magnitude, rfl⟩
    obtain ⟨noMinus, noPlus⟩ := magnitude.unsigned
    have same := (takeSign_append member noMinus noPlus).symm.trans taken
    obtain ⟨rfl, rfl⟩ := Prod.mk.inj same
    refine ⟨nanos, magnitude, congrArg (· * _) ?_⟩
    simp only [signs, List.mem_cons, List.not_mem_nil, or_false, Prod.mk.injEq] at member
    rcases member with ⟨-, rfl⟩ | ⟨-, rfl⟩ | ⟨-, rfl⟩ <;> rfl
  · rintro ⟨nanos, magnitude, rfl⟩
    obtain ⟨sign, member, rfl⟩ := takeSign_sound taken
    exact ⟨sign, _, body, nanos, member, rfl, magnitude, rfl⟩

/-! ### Whole durations -/

namespace Duration

/-- A duration that is in range with its sign is in range without. -/
theorem ofMicros?_magnitude
    {negative : Bool} {nanos : Nat} {d : Duration}
    (signed : ofMicros? (signedMicros negative nanos) = some d) :
    ∃ magnitude, ofMicros? ((nanos / 1000 : Nat) : Int) = some magnitude := by
  have micros := ofMicros?_eq_some_iff.mp signed
  have low := d.min_le
  have high := d.le_max
  have inRange : minMicros ≤ ((nanos / 1000 : Nat) : Int) ∧
      ((nanos / 1000 : Nat) : Int) ≤ maxMicros := by
    simp only [signedMicros, minMicros, maxMicros] at *
    split at micros <;> omega
  exact ⟨⟨_, inRange.1, inRange.2⟩, ofMicros?_eq_some_iff.mpr rfl⟩

section Reading

variable {text : String} {body : List Char} {negative : Bool}

/-- A sign and a magnitude are read as a duration, or are out of range. -/
theorem read_magnitude
    {nanos : Nat}
    (legible : Legible body)
    (taken : takeSign (strip text.toList) = (negative, body))
    (magnitude : IsMagnitude body nanos) :
    read text =
      match ofMicros? (signedMicros negative nanos) with
      | some d => .ok d
      | none => .error (.outOfRange text) := by
  rw [read, taken]
  rcases magnitude with ⟨rfl, rfl⟩ | ⟨nonempty, parts⟩
  · cases negative <;> rfl
  have reads := reads_of_isParts text parts legible
  have total := reads body.length (Nat.le_refl _)
  have factor : signedMicros negative nanos =
      if negative then -((nanos / 1000 : Nat) : Int) else ((nanos / 1000 : Nat) : Int) := by
    cases negative <;> simp [signedMicros]
  simp only [reads.unsigned.2, if_false, List.isEmpty_iff, nonempty, total, bind, Except.bind]
  rw [← factor]
  rcases signed : ofMicros? (signedMicros negative nanos) with _ | d
  · cases ofMicros? ((nanos / 1000 : Nat) : Int) <;> rfl
  · obtain ⟨magnitude, inRange⟩ := ofMicros?_magnitude signed
    rw [inRange]
    rfl

/-- What stands behind a sign and is no magnitude is invalid. -/
theorem read_invalid
    (legible : Legible body)
    (taken : takeSign (strip text.toList) = (negative, body))
    (noMagnitude : ∀ nanos, ¬ IsMagnitude body nanos) :
    read text = .error (.invalid text) := by
  have notZero : body ≠ ['0'] := fun zero => noMagnitude 0 (.inl ⟨zero, rfl⟩)
  rw [read, taken]
  simp only [notZero, if_false]
  by_cases empty : body = []
  · rw [empty]
    rfl
  rw [if_neg (by simpa using empty)]
  rcases readParts_cases text body.length legible with ⟨nanos, -, parts⟩ | refused
  · exact absurd (.inr ⟨empty, parts⟩) (noMagnitude nanos)
  · simp only [refused, bind, Except.bind]

end Reading

/-! ### Texts with blanks around them -/

theorem strip_isPrefix
    (cs : List Char) :
    strip cs <+: cs.dropWhile isBlank := by
  rw [← List.reverse_suffix, strip, List.reverse_reverse]
  exact List.dropWhile_suffix _

theorem strip_isInfix
    (cs : List Char) :
    strip cs <:+: cs :=
  (strip_isPrefix cs).isInfix.trans (List.dropWhile_suffix _).isInfix

section Unblanked

variable {cs : List Char} (solid : ∀ c ∈ cs.head?, isBlank c = false)

include solid

theorem dropWhile_blank_solid :
    cs.dropWhile isBlank = cs := by
  cases cs <;> simp_all

/-- A sign in front keeps blanks from being dropped there. -/
theorem strip_minus :
    strip ('-' :: cs) = '-' :: strip cs := by
  have minus : isBlank '-' = false := by decide
  have last : (cs.reverse ++ ['-']).dropWhile isBlank = cs.reverse.dropWhile isBlank ++ ['-'] := by
    rw [List.dropWhile_append]
    split
    · next empty => simp [minus, List.isEmpty_iff.mp empty]
    · rfl
  rw [strip, strip, dropWhile_blank_solid solid, List.dropWhile_cons_of_neg (by simp [minus]),
    List.reverse_cons, last, List.reverse_append]
  rfl

/-- Without blanks in front the text begins as it is written. -/
theorem head?_strip
    {c : Char}
    (begins : c ∈ (strip cs).head?) :
    c ∈ cs.head? := by
  have front := strip_isPrefix cs
  rw [dropWhile_blank_solid solid] at front
  obtain ⟨more, whole⟩ := front
  rw [← whole]
  cases short : strip cs with
  | nil => simp [short] at begins
  | cons d rest => simpa [short] using begins

end Unblanked

/-! ### The notation -/

section Notation

variable {text : String} {body : List Char} {negative : Bool}

theorem legible_body
    (legible : Legible text.toList)
    (taken : takeSign (strip text.toList) = (negative, body)) :
    Legible body := by
  obtain ⟨sign, -, split⟩ := takeSign_sound taken
  have behind : body <:+: strip text.toList := by
    rw [split]
    exact (List.suffix_append _ _).isInfix
  exact legible.infix (behind.trans (strip_isInfix _))

/-- A text is read as the duration that the notation says. -/
theorem read_eq_ok_iff
    (legible : Legible text.toList)
    {d : Duration} :
    read text = .ok d ↔ Denotes (strip text.toList) d.micros := by
  rcases taken : takeSign (strip text.toList) with ⟨negative, body⟩
  have legibleBody := legible_body legible taken
  rw [denotes_iff taken]
  constructor
  · intro accepted
    by_cases some : ∃ nanos, IsMagnitude body nanos
    · obtain ⟨nanos, magnitude⟩ := some
      rw [read_magnitude legibleBody taken magnitude] at accepted
      split at accepted
      · next signed =>
          cases accepted
          exact ⟨nanos, magnitude, ofMicros?_eq_some_iff.mp signed⟩
      · cases accepted
    · rw [read_invalid legibleBody taken (not_exists.mp some)] at accepted
      cases accepted
  · rintro ⟨nanos, magnitude, micros⟩
    rw [read_magnitude legibleBody taken magnitude, ofMicros?_eq_some_iff.mpr micros]

/-- A text that is not read is no duration of the notation, or one that is out of range. -/
theorem read_refused
    (legible : Legible text.toList)
    (refused : ∀ d, read text ≠ .ok d) :
    read text = .error (.invalid text) ∧ (∀ micros, ¬ Denotes (strip text.toList) micros) ∨
      read text = .error (.outOfRange text) ∧ ∃ micros, Denotes (strip text.toList) micros := by
  rcases taken : takeSign (strip text.toList) with ⟨negative, body⟩
  have legibleBody := legible_body legible taken
  simp only [denotes_iff taken]
  by_cases some : ∃ nanos, IsMagnitude body nanos
  · obtain ⟨nanos, magnitude⟩ := some
    have result := read_magnitude legibleBody taken magnitude
    split at result
    · exact absurd result (refused _)
    · exact .inr ⟨result, _, nanos, magnitude, rfl⟩
  · have noMagnitude := not_exists.mp some
    refine .inl ⟨read_invalid legibleBody taken noMagnitude, ?_⟩
    rintro micros ⟨nanos, magnitude, -⟩
    exact noMagnitude nanos magnitude

/-- A minus sign in front of an unsigned duration makes its opposite. -/
theorem read_opposite
    {d : Duration}
    (legible : Legible text.toList)
    (accepted : read text = .ok d)
    (unsigned : ∀ c ∈ text.toList.head?, isBlank c = false ∧ c ≠ '-' ∧ c ≠ '+')
    (small : d.micros ≤ 999999999 * 86400000000) :
    ∃ e, read ("-" ++ text) = .ok e ∧ e.micros = -d.micros := by
  have solid : ∀ c ∈ text.toList.head?, isBlank c = false := fun c begins => (unsigned c begins).1
  have taken : takeSign (strip text.toList) = (false, strip text.toList) := by
    refine takeSign_unsigned ?_ ?_ <;> intro begins
    · exact (unsigned _ (head?_strip solid begins)).2.1 rfl
    · exact (unsigned _ (head?_strip solid begins)).2.2 rfl
  have takenMinus : takeSign (strip ("-" ++ text).toList) = (true, strip text.toList) := by
    rw [String.toList_append]
    exact congrArg takeSign (strip_minus solid)
  obtain ⟨nanos, magnitude, micros⟩ := (denotes_iff taken).mp ((read_eq_ok_iff legible).mp accepted)
  have opposite : -d.micros = signedMicros true nanos := by
    rw [micros]
    simp [signedMicros]
  have low := d.min_le
  have inRange : minMicros ≤ -d.micros ∧ -d.micros ≤ maxMicros := by
    simp only [minMicros, maxMicros] at *
    omega
  obtain ⟨e, same⟩ : ∃ e : Duration, e.micros = -d.micros := ⟨⟨_, inRange.1, inRange.2⟩, rfl⟩
  refine ⟨e, ?_, same⟩
  rw [read_magnitude (legible_body legible taken) takenMinus magnitude,
    ofMicros?_eq_some_iff.mpr (same.trans opposite)]

end Notation

/-- What becomes of a text that is read as a duration. -/
structure ReadsNotation (text : String) : Prop where
  reads_iff : ∀ d, read text = .ok d ↔ Denotes (strip text.toList) d.micros
  succeeds_iff : (∃ d, read text = .ok d) ↔
    ∃ micros, Denotes (strip text.toList) micros ∧ minMicros ≤ micros ∧ micros ≤ maxMicros
  /-- All else is an exception, which says whether the text is no duration or one out of range. -/
  refuses : (∀ d, read text ≠ .ok d) → ∃ e, read text = .error e ∧
    Stdlib.toDuration text = .raise ⟨"ValueError", some e.message⟩ ∧
    (e = .invalid text ∧ (∀ micros, ¬ Denotes (strip text.toList) micros) ∨
      e = .outOfRange text ∧ ∃ micros, Denotes (strip text.toList) micros)
  /-- A minus sign makes the opposite of a duration, which is truncated towards zero like it. -/
  opposite : ∀ d, read text = .ok d →
    (∀ c ∈ text.toList.head?, isBlank c = false ∧ c ≠ '-' ∧ c ≠ '+') →
    d.micros ≤ 999999999 * 86400000000 →
    ∃ e, read ("-" ++ text) = .ok e ∧ e.micros = -d.micros

/-- A text is read as the duration that the notation says, and refused if it says none. -/
theorem read_notation
    {text : String}
    (legible : Legible text.toList) :
    ReadsNotation text := by
  constructor
  case reads_iff => exact fun d => read_eq_ok_iff legible
  case succeeds_iff =>
    constructor
    · rintro ⟨d, accepted⟩
      exact ⟨d.micros, (read_eq_ok_iff legible).mp accepted, d.min_le, d.le_max⟩
    · rintro ⟨micros, denotes, low, high⟩
      exact ⟨⟨micros, low, high⟩, (read_eq_ok_iff legible).mpr denotes⟩
  case refuses =>
    intro refused
    rcases read_refused legible refused with ⟨result, none⟩ | ⟨result, some⟩
    · exact ⟨_, result, by rw [Stdlib.toDuration, result]; rfl, .inl ⟨rfl, none⟩⟩
    · exact ⟨_, result, by rw [Stdlib.toDuration, result]; rfl, .inr ⟨rfl, some⟩⟩
  case opposite => exact fun d => read_opposite legible

/-- A minute and a half second, with a sign and with blanks, and its opposite. -/
theorem read_notation_halfSecond :
    Legible " +1m.5s".toList ∧ Legible "1m.5s".toList ∧
      (∃ d, read " +1m.5s" = .ok d ∧ d.micros = 60500000) ∧
      ∃ d, read ("-" ++ "1m.5s") = .ok d ∧ d.micros = -60500000 := by
  have legible : ∀ text ∈ [" +1m.5s", "1m.5s"], Legible text.toList := by
    have ascii : ∀ text ∈ [" +1m.5s", "1m.5s"], ∀ c ∈ text.toList,
        isDecimalDigit c = true → c.isDigit = true := by
      decide
    have short : ∀ text ∈ [" +1m.5s", "1m.5s"], text.toList.length ≤ integerDigitLimit := by
      decide
    exact fun text member => ⟨ascii text member,
      fun run inside _ => Nat.le_trans inside.length_le (short text member)⟩
  have minute : (['m'], 60000000000) ∈ units := by simp [units]
  have second : (['s'], 1000000000) ∈ units := by simp [units]
  have run : ∀ digit ∈ ['1', '5'], IsRun [digit] := by simp [IsRun]
  have parts : IsParts "1m.5s".toList 60500000000 :=
    .part (.integer (run '1' (by simp))) minute (.part (.fraction (run '5' (by simp))) second .nil)
  have denotes : ∀ sign ∈ [[], ['+']], Denotes (sign ++ "1m.5s".toList) 60500000 := by
    intro sign member
    refine ⟨sign, 1, _, _, ?_, rfl, .inr ⟨by decide, parts⟩, by decide⟩
    revert sign
    decide
  have plain := read_notation (legible "1m.5s" (by simp))
  have signed := read_notation (legible " +1m.5s" (by simp))
  have read : read "1m.5s" = .ok ⟨60500000, by decide, by decide⟩ :=
    (plain.reads_iff _).mpr (denotes [] (by simp))
  exact ⟨legible _ (by simp), legible _ (by simp),
    ⟨_, (signed.reads_iff ⟨60500000, by decide, by decide⟩).mpr (denotes ['+'] (by simp)), rfl⟩,
    plain.opposite _ read (fun c begins => by cases begins; decide) (by decide)⟩

end Duration
end Time
end ExprLang
