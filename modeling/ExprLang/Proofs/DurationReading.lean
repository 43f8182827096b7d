import ExprLang.Proofs.FloatNotation
import ExprLang.Time.DurationText

/-!
# The text of a duration reads back

The canonical text of a duration is a sign and a few parts, each a number and a unit.  Every part is
read as the microseconds that it was written for, and the parts add up to the duration.

* `Reads.cons`: one part in front of others.
* `Reads.fractionText`: a number with a fraction, which without its zeros is worth what it was.
* `Duration.read_text`: reading the text of a duration gives the duration.
-/

namespace ExprLang

/-! ### Digits of any script -/

namespace Text

theorem digitValue?_of_isDigit
    {c : Char}
    (digit : c.isDigit = true) :
    digitValue? c = some (c.toNat - 48) := by
  simp only [Char.isDigit, Bool.and_eq_true, decide_eq_true_eq] at digit
  have low : 48 ≤ c.toNat := digit.1
  have high : c.toNat < 58 := Nat.lt_succ_of_le digit.2
  simp [digitValue?, digitZeros, low, high]

theorem isDecimalDigit_of_isDigit
    {c : Char}
    (digit : c.isDigit = true) :
    isDecimalDigit c = true := by
  rw [isDecimalDigit, digitValue?_of_isDigit digit]
  rfl

/-- A text without blanks. -/
def Solid (s : String) : Prop :=
  ∀ c ∈ s.toList, isBlank c = false

instance (s : String) : Decidable (Solid s) :=
  inferInstanceAs (Decidable (∀ c ∈ s.toList, isBlank c = false))

theorem isBlank_of_isDigit
    {c : Char}
    (digit : c.isDigit = true) :
    isBlank c = false := by
  simp only [Char.isDigit, Bool.and_eq_true, decide_eq_true_eq] at digit
  have low : 48 ≤ c.toNat := digit.1
  have high : c.toNat < 58 := Nat.lt_succ_of_le digit.2
  simp [isBlank, InRanges, blankRanges]
  omega

theorem Solid.append
    {a b : String}
    (first : Solid a)
    (second : Solid b) :
    Solid (a ++ b) := by
  intro c member
  rw [String.toList_append, List.mem_append] at member
  rcases member with member | member
  · exact first c member
  · exact second c member

theorem solid_natText
    {n : Nat} :
    Solid (Number.natText n) := by
  intro c member
  rw [Number.natText, String.toList_ofList] at member
  exact isBlank_of_isDigit (Number.isDigit_of_mem_toDigits member)

theorem solid_padded
    {width n : Nat} :
    Solid (Number.padded width n) :=
  fun _ member => isBlank_of_isDigit (Number.isDigit_of_mem_padded member)

/-- A text without blanks is not stripped. -/
theorem strip_of_solid
    {s : String}
    (solid : Solid s) :
    strip s.toList = s.toList :=
  trim_eq_self solid

end Text

/-! ### Fractions without zeros at their end -/

namespace Number

theorem dropTrailingZeros_append
    (digits : List Char) :
    ∃ count, digits = dropTrailingZeros digits ++ List.replicate count '0' := by
  refine ⟨(digits.reverse.takeWhile (· == '0')).length, ?_⟩
  have zeros : digits.reverse.takeWhile (· == '0') =
      List.replicate (digits.reverse.takeWhile (· == '0')).length '0' := by
    refine List.eq_replicate_iff.mpr ⟨rfl, fun c member => ?_⟩
    simpa using List.all_eq_true.mp List.all_takeWhile c member
  rw [dropTrailingZeros, ← List.reverse_replicate, ← zeros, ← List.reverse_append,
    List.takeWhile_append_dropWhile, List.reverse_reverse]

/-- A fraction of `width` digits that is not zero keeps its first digits, and is that many places
smaller than they are. -/
theorem dropTrailingZeros_padded
    {width fraction : Nat}
    (positive : 0 < width)
    (nonzero : fraction ≠ 0)
    (fits : fraction < 10 ^ width) :
    ∃ count, IsRun (dropTrailingZeros (padded width fraction).toList) ∧
      (dropTrailingZeros (padded width fraction).toList).length + count = width ∧
      digitsValue (dropTrailingZeros (padded width fraction).toList) * 10 ^ count = fraction := by
  obtain ⟨count, split⟩ := dropTrailingZeros_append (padded width fraction).toList
  have value := digitsValue_padded width fraction
  have length := length_padded positive fits
  have digits : ∀ c ∈ dropTrailingZeros (padded width fraction).toList, c.isDigit = true := by
    intro c member
    have inside : c ∈ (padded width fraction).toList := by
      rw [split]
      exact List.mem_append_left _ member
    exact isDigit_of_mem_padded inside
  generalize dropTrailingZeros (padded width fraction).toList = kept at *
  rw [split] at value length
  rw [digitsValue, Nat.ofDigitChars_append, Nat.ofDigitChars_replicate_zero] at value
  rw [List.length_append, List.length_replicate] at length
  refine ⟨count, ⟨?_, digits⟩, length, ?_⟩
  · rintro rfl
    rw [Nat.ofDigitChars_nil, Nat.mul_zero] at value
    exact nonzero value.symm
  · rw [digitsValue, Nat.mul_comm]
    exact value

end Number

/-! ### Parts -/

namespace Time

open Number

/-- What is not a digit ends a sequence of digits, whatever their script. -/
theorem takeWhile_digits
    {digits rest : List Char}
    (allDigits : ∀ c ∈ digits, c.isDigit = true)
    (boundary : ∀ c ∈ rest.head?, Text.isDecimalDigit c = false) :
    (digits ++ rest).takeWhile Text.isDecimalDigit = digits ∧
      (digits ++ rest).dropWhile Text.isDecimalDigit = rest := by
  have inside : ∀ c ∈ digits, Text.isDecimalDigit c = true :=
    fun c member => Text.isDecimalDigit_of_isDigit (allDigits c member)
  exact ⟨Text.takeWhile_run inside boundary, Text.dropWhile_run inside boundary⟩

theorem readDigits_of_isDigit
    {digits : List Char}
    (allDigits : ∀ c ∈ digits, c.isDigit = true)
    (short : digits.length ≤ integerDigitLimit) :
    readDigits digits = .ok (digitsValue digits) := by
  have same : ∀ (cs : List Char) (n : Nat), (∀ c ∈ cs, c.isDigit = true) →
      cs.foldl (fun n c => 10 * n + (Text.digitValue? c).getD 0) n = Nat.ofDigitChars 10 cs n := by
    intro cs
    induction cs with
    | nil => intros; simp
    | cons c cs ih =>
        intro n inside
        rw [List.foldl_cons, Text.digitValue?_of_isDigit (inside c (by simp)),
          Nat.ofDigitChars_cons]
        exact ih _ fun d member => inside d (by simp [member])
  rw [readDigits, if_neg (by omega), same digits 0 allDigits]
  rfl

/-- A unit at the front of a text: it starts like no number, and `nanos` is what it stands for. -/
structure IsUnit (unit rest : List Char) (nanos : Nat) : Prop where
  boundary : ∀ c ∈ (unit ++ rest).head?, Text.isDecimalDigit c = false ∧ c ≠ '.'
  taken : takeUnit? (unit ++ rest) = some (nanos, rest)

theorem isUnit_of_letter
    {c : Char} {cs rest : List Char} {nanos : Nat}
    (noNumber : Text.isDecimalDigit c = false ∧ c ≠ '.')
    (taken : takeUnit? (c :: cs ++ rest) = some (nanos, rest)) :
    IsUnit (c :: cs) rest nanos := by
  refine ⟨fun d member => ?_, taken⟩
  obtain rfl : c = d := by simpa using member
  exact noNumber

theorem takePart?_whole
    {whole unit rest : List Char} {nanos : Nat}
    (run : IsRun whole)
    (isUnit : IsUnit unit rest nanos) :
    takePart? (whole ++ (unit ++ rest)) = some (⟨whole, [], nanos⟩, rest) := by
  obtain ⟨taken, left⟩ := takeWhile_digits run.2 fun c member => (isUnit.boundary c member).1
  have noPoint : ∀ digits, unit ++ rest ≠ '.' :: digits := by
    intro digits h
    exact (isUnit.boundary '.' (by simp [h])).2 rfl
  rw [takePart?, taken, left]
  split
  · next digits h =>
      split at h
      · next more isPoint => exact absurd isPoint (noPoint more)
      · obtain ⟨rfl, rfl⟩ := Prod.mk.inj h
        simp [run.1, isUnit.taken]

/-- A point may have digits on one side only. -/
theorem takePart?_point
    {whole fraction unit rest : List Char} {nanos : Nat}
    (wholeDigits : ∀ c ∈ whole, c.isDigit = true)
    (fractionDigits : ∀ c ∈ fraction, c.isDigit = true)
    (number : whole ≠ [] ∨ fraction ≠ [])
    (isUnit : IsUnit unit rest nanos) :
    takePart? (whole ++ ('.' :: fraction ++ (unit ++ rest))) =
      some (⟨whole, fraction, nanos⟩, rest) := by
  have point : ∀ c ∈ ('.' :: fraction ++ (unit ++ rest)).head?, Text.isDecimalDigit c = false := by
    intro c member
    obtain rfl : '.' = c := by simpa using member
    decide
  obtain ⟨taken, left⟩ := takeWhile_digits wholeDigits point
  obtain ⟨takenFraction, leftFraction⟩ :=
    takeWhile_digits fractionDigits fun c member => (isUnit.boundary c member).1
  have notEmpty : (whole.isEmpty && fraction.isEmpty) = false := by
    rcases number with nonempty | nonempty <;> simp [nonempty]
  rw [takePart?, taken, left]
  simp [takenFraction, leftFraction, notEmpty, isUnit.taken]

/-- The text `body` is a sequence of parts that are worth `nanos` nanoseconds. -/
def Reads (text : String) (body : List Char) (nanos : Nat) : Prop :=
  ∀ fuel, body.length ≤ fuel → readParts text fuel body = .ok nanos

theorem Reads.nil
    (text : String) :
    Reads text [] 0 := by
  intro fuel _
  cases fuel <;> rfl

/-- A part in front of others adds what it is worth. -/
theorem Reads.cons
    {text : String} {body rest : List Char} {part : Part} {n m : Nat}
    (taken : takePart? body = some (part, rest))
    (shorter : rest.length < body.length)
    (worth : part.nanos = .ok n)
    (others : Reads text rest m) :
    Reads text body (n + m) := by
  intro fuel enough
  cases fuel with
  | zero => omega
  | succ fuel =>
      cases body with
      | nil => simp at shorter
      | cons c body =>
          have left := others fuel (by omega)
          simp only [readParts, taken, worth, left]
          rfl

/-- Digits of ASCII are worth what they say, those behind the point truncated. -/
theorem nanos_of_isDigit
    {whole fraction : List Char}
    (nanos : Nat)
    (wholeDigits : ∀ c ∈ whole, c.isDigit = true)
    (wholeShort : whole.length ≤ integerDigitLimit)
    (fractionDigits : ∀ c ∈ fraction, c.isDigit = true)
    (fractionShort : fraction.length ≤ integerDigitLimit) :
    Part.nanos ⟨whole, fraction, nanos⟩ =
      .ok (digitsValue whole * nanos + digitsValue fraction * nanos / 10 ^ fraction.length) := by
  rw [Part.nanos, readDigits_of_isDigit wholeDigits wholeShort,
    readDigits_of_isDigit fractionDigits fractionShort]
  rfl

theorem isRun_toDigits
    (n : Nat) :
    IsRun (Nat.toDigits 10 n) :=
  ⟨Nat.toDigits_ne_nil, fun _ => isDigit_of_mem_toDigits⟩

theorem Reads.whole
    {text : String} {n m nanos : Nat} {unit rest : List Char}
    (small : n ≤ 18446744073709551615)
    (isUnit : IsUnit unit rest nanos)
    (others : Reads text rest m) :
    Reads text ((natText n).toList ++ (unit ++ rest)) (n * nanos + m) := by
  have run := isRun_toDigits n
  have worth := nanos_of_isDigit nanos run.2 (Lexer.length_natText_le small)
    (List.forall_mem_nil _) (Nat.zero_le _)
  have nothing : digitsValue [] * nanos / 10 ^ ([] : List Char).length = 0 := by
    simp [digitsValue]
  rw [digitsValue_toDigits, nothing, Nat.add_zero] at worth
  rw [natText, String.toList_ofList]
  refine Reads.cons (takePart?_whole run isUnit) ?_ worth others
  have := List.length_pos_iff.mpr run.1
  simp only [List.length_append]
  omega

/-- What the unit of a fraction gives: a unit of `width` places more than a microsecond, so that
the fraction is worth as many microseconds as its digits say. -/
theorem worth_fraction
    {value length count width : Nat}
    (places : length + count = width) :
    value * 10 ^ (width + 3) / 10 ^ length = value * 10 ^ count * 1000 := by
  have split : value * 10 ^ (width + 3) = value * 10 ^ count * 1000 * 10 ^ length := by
    rw [← places, Nat.pow_add, Nat.pow_add, show 10 ^ 3 = 1000 from rfl]
    ac_rfl
  rw [split, Nat.mul_div_cancel _ (Nat.pow_pos (by decide))]

/-- A number with a fraction is worth its microseconds. -/
theorem Reads.fractionText
    {text : String} {whole fraction width m : Nat} {unit rest : List Char}
    (small : whole ≤ 18446744073709551615)
    (positive : 0 < width)
    (narrow : width ≤ integerDigitLimit)
    (fits : fraction < 10 ^ width)
    (isUnit : IsUnit unit rest (10 ^ (width + 3)))
    (others : Reads text rest m) :
    Reads text ((Duration.fractionText whole fraction width).toList ++ (unit ++ rest))
      (whole * 10 ^ (width + 3) + fraction * 1000 + m) := by
  unfold Duration.fractionText
  split
  · next none =>
      rw [none, Nat.zero_mul, Nat.add_zero]
      exact Reads.whole small isUnit others
  · next nonzero =>
      obtain ⟨count, run, places, value⟩ := dropTrailingZeros_padded positive nonzero fits
      generalize dropTrailingZeros (padded width fraction).toList = kept at *
      have wholeRun := isRun_toDigits whole
      have worth := nanos_of_isDigit (10 ^ (width + 3)) wholeRun.2
        (Lexer.length_natText_le small) run.2 (by omega)
      rw [digitsValue_toDigits, worth_fraction places, value] at worth
      have shape : (natText whole ++ "." ++ String.ofList kept).toList ++ (unit ++ rest) =
          Nat.toDigits 10 whole ++ ('.' :: kept ++ (unit ++ rest)) := by
        simp [natText]
      rw [shape]
      refine Reads.cons (takePart?_point wholeRun.2 run.2 (.inl wholeRun.1) isUnit) ?_ worth others
      simp only [List.length_append, List.length_cons]
      omega

/-! ### Whole durations -/

theorem solid_fractionText
    {whole fraction width : Nat} :
    Text.Solid (Duration.fractionText whole fraction width) := by
  unfold Duration.fractionText
  split
  · exact Text.solid_natText
  · refine (Text.solid_natText.append (by decide)).append fun c member => ?_
    rw [String.toList_ofList] at member
    obtain ⟨count, split⟩ := dropTrailingZeros_append (padded width fraction).toList
    have inside : c ∈ (padded width fraction).toList := by
      rw [split]
      exact List.mem_append_left _ member
    exact Text.solid_padded c inside

theorem solid_magnitudeText
    {us : Nat} :
    Text.Solid (Duration.magnitudeText us) := by
  have optional : ∀ {absent : Prop} [Decidable absent] {n : Nat} {unit : String},
      Text.Solid unit → Text.Solid (if absent then "" else natText n ++ unit) := by
    intro absent _ n unit hUnit
    split
    · exact fun c member => by simp at member
    · exact Text.solid_natText.append hUnit
  unfold Duration.magnitudeText
  split
  · exact Text.solid_natText.append (by decide)
  split
  · exact solid_fractionText.append (by decide)
  · exact (((optional (by decide)).append (optional (by decide))).append
      solid_fractionText).append (by decide)

/-- A number starts with a digit. -/
theorem head?_natText
    {n : Nat} {rest : List Char} :
    ∀ c ∈ ((natText n).toList ++ rest).head?, c.isDigit = true := by
  intro c member
  obtain ⟨d, digits, text⟩ := List.exists_cons_of_ne_nil (isRun_toDigits n).1
  rw [natText, String.toList_ofList, text] at member
  obtain rfl : d = c := by simpa using member
  exact isDigit_of_mem_toDigits (n := n) (by simp [text])

theorem head?_fractionText
    {whole fraction width : Nat} {rest : List Char} :
    ∀ c ∈ ((Duration.fractionText whole fraction width).toList ++ rest).head?,
      c.isDigit = true := by
  unfold Duration.fractionText
  split
  · exact head?_natText
  · rw [String.toList_append, String.toList_append, List.append_assoc, List.append_assoc]
    exact head?_natText

/-- The letter of minutes is a unit of its own where no `s` follows. -/
theorem isUnit_minute
    {rest : List Char}
    (apart : 's' ∉ rest.head?) :
    IsUnit ['m'] rest 60000000000 := by
  refine isUnit_of_letter (by decide) ?_
  cases rest with
  | nil => rfl
  | cons c rest =>
      have noSecond : c ≠ 's' := by
        rintro rfl
        exact apart rfl
      simp [takeUnit?, noSecond]

theorem isUnit_hour
    {rest : List Char} :
    IsUnit ['h'] rest 3600000000000 :=
  isUnit_of_letter (by decide) rfl

/-- A part that is left out where it would be zero. -/
theorem Reads.optional
    {text : String} {n m nanos : Nat} {rest : List Char} {absent : Prop} [Decidable absent]
    (unit : String)
    (zero : absent → n = 0)
    (small : n ≤ 18446744073709551615)
    (isUnit : IsUnit unit.toList rest nanos)
    (others : Reads text rest m) :
    Reads text ((if absent then "" else natText n ++ unit).toList ++ rest) (n * nanos + m) := by
  split
  · next isAbsent =>
      rw [zero isAbsent, Nat.zero_mul, Nat.zero_add]
      exact others
  · rw [String.toList_append, List.append_assoc]
    exact .whole small isUnit others

/-- The parts of the canonical text are worth the microseconds that it was written for. -/
theorem reads_magnitudeText
    {us : Nat}
    (small : us ≤ 86400000000000000000)
    (text : String) :
    Reads text (Duration.magnitudeText us).toList (us * 1000) := by
  have micro : IsUnit ['µ', 's'] [] 1000 := isUnit_of_letter (by decide) rfl
  have milli : IsUnit ['m', 's'] [] (10 ^ (3 + 3)) := isUnit_of_letter (by decide) rfl
  have second : IsUnit ['s'] [] (10 ^ (6 + 3)) := isUnit_of_letter (by decide) rfl
  unfold Duration.magnitudeText
  split
  · have reads : Reads text ((natText us).toList ++ (['µ', 's'] ++ [])) (us * 1000 + 0) :=
      .whole (by omega) micro (.nil text)
    simpa using reads
  split
  · have reads : Reads text
        ((Duration.fractionText (us / 1000) (us % 1000) 3).toList ++ (['m', 's'] ++ []))
        (us / 1000 * 10 ^ (3 + 3) + us % 1000 * 1000 + 0) :=
      .fractionText (by omega) (by decide) (by decide) (by omega) milli (.nil text)
    rw [show us * 1000 = us / 1000 * 10 ^ (3 + 3) + us % 1000 * 1000 + 0 by omega]
    simpa using reads
  · have seconds : Reads text
        ((Duration.fractionText (us / 1000000 % 60) (us % 1000000) 6).toList ++ (['s'] ++ []))
        (us / 1000000 % 60 * 10 ^ (6 + 3) + us % 1000000 * 1000 + 0) :=
      .fractionText (by omega) (by decide) (by decide) (by omega) second (.nil text)
    have minutes := Reads.optional "m"
      (fun absent : us / 3600000000 = 0 ∧ us / 60000000 % 60 = 0 => absent.2) (by omega)
      (isUnit_minute fun member => absurd (head?_fractionText 's' member) (by decide)) seconds
    have hours := Reads.optional "h"
      (fun absent : us / 3600000000 = 0 => absent) (by omega) isUnit_hour minutes
    have total : us * 1000 = us / 3600000000 * 3600000000000 + (us / 60000000 % 60 * 60000000000 +
        (us / 1000000 % 60 * 10 ^ (6 + 3) + us % 1000000 * 1000 + 0)) := by
      omega
    rw [total]
    simpa using hours

/-- Parts that are worth something begin without a sign, and are no lone zero. -/
theorem Reads.unsigned
    {text : String} {body : List Char} {n : Nat}
    (reads : Reads text body n) :
    takeSign body = (false, body) ∧ body ≠ ['0'] := by
  have whole := reads body.length (Nat.le_refl _)
  have unsigned : '-' ∉ body.head? ∧ '+' ∉ body.head? := by
    cases body with
    | nil => simp
    | cons c rest =>
        constructor <;>
          · rintro ⟨⟩
            cases whole
  refine ⟨takeSign_unsigned unsigned.1 unsigned.2, ?_⟩
  rintro rfl
  cases whole

namespace Duration

theorem read_zero :
    read "0s" = .ok zero := by
  rfl

/-- What is read from a sign and parts. -/
theorem read_of_reads
    {text : String} {body : List Char} {us : Nat} {magnitude d : Duration}
    (negative : Bool)
    (solid : Text.Solid text)
    (sign : takeSign text.toList = (negative, body))
    (reads : Reads text body (us * 1000))
    (nonempty : body ≠ [])
    (inRange : magnitude.micros = us)
    (signed : d.micros = if negative then -(us : Int) else us) :
    read text = .ok d := by
  have total := reads body.length (Nat.le_refl _)
  have micros : ((us * 1000 / 1000 : Nat) : Int) = us := by omega
  rw [read, Text.strip_of_solid solid, sign]
  simp only [reads.unsigned.2, if_false, List.isEmpty_iff, nonempty, total]
  have magnitudeOf : ofMicros? ((us * 1000 / 1000 : Nat) : Int) = some magnitude := by
    rw [micros, ofMicros?_eq_some_iff.mpr inRange]
  have signedOf : ofMicros? (if negative then -((us * 1000 / 1000 : Nat) : Int)
      else ((us * 1000 / 1000 : Nat) : Int)) = some d := by
    rw [micros, ofMicros?_eq_some_iff.mpr signed]
  simp only [bind, Except.bind, magnitudeOf, signedOf]
  rfl

/-- Reading the text of a duration gives the duration. -/
theorem read_text
    (d : Duration) :
    read d.text = .ok d := by
  have low := d.min_le
  have high := d.le_max
  simp only [minMicros, maxMicros] at low high
  by_cases none : d.micros = 0
  · rw [text, if_pos none, read_zero]
    exact congrArg Except.ok (ext none.symm)
  have reads (whole : String) : Reads whole (magnitudeText d.micros.natAbs).toList
      (d.micros.natAbs * 1000) :=
    reads_magnitudeText (by omega) whole
  have nonempty : (magnitudeText d.micros.natAbs).toList ≠ [] := by
    intro empty
    have worth := reads "" 0
    rw [empty] at worth
    have := Except.ok.inj (worth (Nat.le_refl _))
    omega
  have inRange : (⟨d.micros.natAbs, by simp only [minMicros]; omega,
      by simp only [maxMicros]; omega⟩ : Duration).micros = (d.micros.natAbs : Int) := rfl
  rw [text, if_neg none]
  by_cases negative : d.micros < 0
  · rw [if_pos negative]
    have sign : takeSign ("-" ++ magnitudeText d.micros.natAbs).toList =
        (true, (magnitudeText d.micros.natAbs).toList) := by
      rw [String.toList_append]
      rfl
    have solid : Text.Solid ("-" ++ magnitudeText d.micros.natAbs) :=
      Text.Solid.append (by decide) solid_magnitudeText
    refine read_of_reads true solid sign (reads _) nonempty inRange ?_
    rw [if_pos rfl]
    omega
  · rw [if_neg negative, String.empty_append]
    refine read_of_reads false solid_magnitudeText (reads "").unsigned.1 (reads _) nonempty
      inRange ?_
    rw [if_neg (by decide)]
    omega

end Duration
end Time
end ExprLang
