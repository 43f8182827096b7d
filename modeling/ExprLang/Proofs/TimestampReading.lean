import ExprLang.Proofs.Calendar
import ExprLang.Proofs.DurationReading
import ExprLang.Time.TimestampText

/-!
# The text of a timestamp reads back

Fields padded with zeros are read as their numbers, and so the text of a timestamp is read as the
timestamp, if its offset is a whole number of minutes.

* `Timestamp.check_fields`: the fields of a timestamp denote it.
* `Timestamp.rfc3339?_text`: the text is in the notation that is read just in that case.
* `Timestamp.read_text`: the round trip through the text.
-/

namespace ExprLang
namespace Time

/-! ### Fields -/

open Number

theorem takeDigits?_append
    {digits : List Char} {count : Nat}
    (allDigits : ∀ c ∈ digits, c.isDigit = true)
    (length : digits.length = count)
    (rest : List Char) :
    takeDigits? count (digits ++ rest) = some (digits, rest) := by
  have decimal : digits.all Text.isDecimalDigit = true :=
    List.all_eq_true.mpr fun c member => Text.isDecimalDigit_of_isDigit (allDigits c member)
  subst length
  simp [takeDigits?, decimal]

theorem takeDigits?_padded
    {width n : Nat}
    (positive : 0 < width)
    (fits : n < 10 ^ width)
    (rest : List Char) :
    takeDigits? width ((padded width n).toList ++ rest) =
      some ((padded width n).toList, rest) :=
  takeDigits?_append (fun _ => isDigit_of_mem_padded) (length_padded positive fits) rest

/-- A number below a hundred as two digits. -/
theorem takeDigits?_pair
    {n : Nat}
    (fits : n < 100)
    (rest : List Char) :
    takeDigits? 2 ((padded 2 n).toList ++ rest) = some ((padded 2 n).toList, rest) :=
  takeDigits?_padded (by decide) fits rest

theorem takePairs?_one
    {n : Nat}
    (fits : n < 100)
    (mark : Char)
    (rest : List Char) :
    takePairs? mark 1 ((padded 2 n).toList ++ rest) = some ([(padded 2 n).toList], rest) := by
  simp [takePairs?, takeDigits?_pair fits]

/-- A pair of digits and a mark in front of further pairs. -/
theorem takePairs?_cons
    {n count : Nat} {mark : Char} {cs rest : List Char} {pairs : List (List Char)}
    (fits : n < 100)
    (others : takePairs? mark (count + 1) cs = some (pairs, rest)) :
    takePairs? mark (count + 2) ((padded 2 n).toList ++ mark :: cs) =
      some ((padded 2 n).toList :: pairs, rest) := by
  simp [takePairs?, takeDigits?_pair fits, takeOneOf?, others]

/-- The digits of a fraction of a second. -/
def fractionDigits (micro : Nat) : List Char :=
  if micro = 0 then [] else (padded 6 micro).toList

theorem takeFraction?_sign
    {micro : Nat} {sign : Char}
    (isSign : sign = '-' ∨ sign = '+')
    (rest : List Char) :
    takeFraction? ((if micro = 0 then "" else "." ++ padded 6 micro).toList ++ sign :: rest) =
      some (fractionDigits micro, sign :: rest) := by
  unfold fractionDigits
  split
  · rcases isSign with rfl | rfl <;> rfl
  · have boundary : ∀ c ∈ (sign :: rest).head?, Text.isDecimalDigit c = false := by
      intro c member
      obtain rfl : sign = c := by simpa using member
      rcases isSign with rfl | rfl <;> decide
    have run : IsRun (padded 6 micro).toList :=
      ⟨by simp [toList_padded, Nat.toDigits_ne_nil], fun _ => isDigit_of_mem_padded⟩
    obtain ⟨taken, left⟩ := takeWhile_digits run.2 boundary
    simp [takeFraction?, taken, left, run.1]

/-- Date and clock are taken apart into their fields. -/
theorem takeReading?_text
    {sign : Char}
    (date : Date)
    (clock : Clock)
    (year : date.year < 10000)
    (month : date.month < 100)
    (day : date.day < 100)
    (hour : clock.hour < 100)
    (minute : clock.minute < 100)
    (second : clock.second < 100)
    (isSign : sign = '-' ∨ sign = '+')
    (rest : List Char) :
    takeReading? ['T', 't', ' '] ((date.text ++ "T" ++ clock.text).toList ++ sign :: rest) =
      some (⟨(padded 4 date.year).toList, (padded 2 date.month).toList, (padded 2 date.day).toList,
        [(padded 2 clock.hour).toList, (padded 2 clock.minute).toList,
          (padded 2 clock.second).toList], fractionDigits clock.micro, none⟩, sign :: rest) := by
  have clockFields := takePairs?_cons hour (takePairs?_cons minute (takePairs?_one second ':'
    ((if clock.micro = 0 then "" else "." ++ padded 6 clock.micro).toList ++ sign :: rest)))
  have shape : (date.text ++ "T" ++ clock.text).toList ++ sign :: rest =
      (padded 4 date.year).toList ++ '-' :: ((padded 2 date.month).toList ++ '-' ::
        ((padded 2 date.day).toList ++ 'T' :: ((padded 2 clock.hour).toList ++ ':' ::
          ((padded 2 clock.minute).toList ++ ':' :: ((padded 2 clock.second).toList ++
            ((if clock.micro = 0 then "" else "." ++ padded 6 clock.micro).toList ++
              sign :: rest)))))) := by
    simp [Date.text, Clock.text]
  rw [shape, takeReading?]
  simp [takeDigits?_padded (show 0 < 4 by decide) (show date.year < 10 ^ 4 by omega),
    takeDigits?_pair month, takeDigits?_pair day, takeOneOf?, clockFields,
    takeFraction?_sign isSign]

/-- What the text of an offset says beyond minutes. -/
def finerText (offset : Int) : String :=
  let c := clockOfMicros offset.natAbs
  (if c.second = 0 ∧ c.micro = 0 then "" else ":" ++ padded 2 c.second) ++
    (if c.micro = 0 then "" else "." ++ padded 6 c.micro)

theorem toList_offsetText
    (offset : Int) :
    (offsetText offset).toList = (if offset < 0 then '-' else '+') ::
      ((padded 2 (clockOfMicros offset.natAbs).hour).toList ++ ':' ::
        ((padded 2 (clockOfMicros offset.natAbs).minute).toList ++ (finerText offset).toList)) := by
  unfold offsetText finerText
  by_cases negative : offset < 0 <;> simp [negative]

/-- An offset is written in minutes if it is a whole number of them. -/
theorem finerText_eq_empty_iff
    {offset : Int} :
    finerText offset = "" ↔ offset % 60000000 = 0 := by
  have whole : (clockOfMicros offset.natAbs).second = 0 ∧ (clockOfMicros offset.natAbs).micro = 0 ↔
      offset % 60000000 = 0 := by
    simp only [clockOfMicros]
    omega
  rw [← whole, finerText]
  by_cases none : (clockOfMicros offset.natAbs).second = 0 ∧ (clockOfMicros offset.natAbs).micro = 0
  · simp [none]
  · simp [none]

namespace Timestamp

/-- The fields that a timestamp is written as. -/
def fields (t : Timestamp) : Fields where
  year := (padded 4 t.date.year).toList
  month := (padded 2 t.date.month).toList
  day := (padded 2 t.date.day).toList
  clock := [(padded 2 t.clock.hour).toList, (padded 2 t.clock.minute).toList,
    (padded 2 t.clock.second).toList]
  fraction := fractionDigits t.clock.micro
  offset := some (decide (t.offset < 0), [(padded 2 (clockOfMicros t.offset.natAbs).hour).toList,
    (padded 2 (clockOfMicros t.offset.natAbs).minute).toList])

theorem offsetClock_lt
    (t : Timestamp) :
    (clockOfMicros t.offset.natAbs).hour < 24 ∧ (clockOfMicros t.offset.natAbs).minute < 60 := by
  have low := t.lt_offset
  have high := t.offset_lt
  simp only [clockOfMicros]
  omega

/-- A month and a day of a month have at most two digits. -/
theorem daysInMonth_lt
    (year month : Nat) :
    daysInMonth year month < 100 := by
  have short : ∀ leap, ∀ length ∈ monthLengths leap, length < 100 := by decide
  rw [daysInMonth]
  split
  · decide
  · rw [List.getD_eq_getElem?_getD]
    cases h : (monthLengths (isLeap year))[month - 1]? with
    | none => decide
    | some length => exact short _ _ (List.mem_of_getElem? h)

/-- The text of a timestamp is taken apart into its fields, unless its offset is finer than RFC 3339
can say. -/
theorem rfc3339?_text
    (t : Timestamp) :
    rfc3339? t.text.toList = if t.offset % 60000000 = 0 then some t.fields else none := by
  obtain ⟨-, year, -, month, -, day⟩ := t.date_exists
  have shortDay := daysInMonth_lt t.date.year t.date.month
  obtain ⟨hour, minute, second, -⟩ := t.clock_valid
  obtain ⟨offsetHour, offsetMinute⟩ := t.offsetClock_lt
  have isSign : (if t.offset < 0 then '-' else '+') = '-' ∨
      (if t.offset < 0 then '-' else '+') = '+' := by
    split <;> simp
  have zone := takePairs?_cons (n := (clockOfMicros t.offset.natAbs).hour) (by omega)
    (takePairs?_one (n := (clockOfMicros t.offset.natAbs).minute) (by omega) ':'
      (finerText t.offset).toList)
  have reading := takeReading?_text t.date t.clock (by omega) (by omega) (by omega) (by omega)
    (by omega) (by omega) isSign ((padded 2 (clockOfMicros t.offset.natAbs).hour).toList ++ ':' ::
      ((padded 2 (clockOfMicros t.offset.natAbs).minute).toList ++ (finerText t.offset).toList))
  rw [rfc3339?, text, String.toList_append, toList_offsetText, reading]
  by_cases negative : t.offset < 0 <;>
    simp [takeOneOf?, negative, zone, fields, finerText_eq_empty_iff]

theorem fractionMicros_fractionDigits
    {micro : Nat}
    (inside : micro < 1000000) :
    fractionMicros (fractionDigits micro) = micro := by
  rw [fractionMicros, fractionDigits]
  split
  · next none =>
      rw [none]
      rfl
  · have length := length_padded (show 0 < 6 by decide) (show micro < 10 ^ 6 from inside)
    rw [List.take_left' length, digitsValue_padded]

theorem offsetMicros_fields
    {t : Timestamp}
    (wholeMinutes : t.offset % 60000000 = 0) :
    t.fields.offsetMicros = t.offset := by
  simp only [Fields.offsetMicros, fields, fieldValue, List.getD_cons_zero, List.getD_cons_succ,
    List.getD_nil, digitsValue_padded, clockOfMicros]
  have nothing : digitsValue [] = 0 := rfl
  rw [nothing]
  split
  · next negative =>
      have := of_decide_eq_true negative
      omega
  · next positive =>
      have := of_decide_eq_false (Bool.eq_false_iff.mpr positive)
      omega

/-- The fields of a timestamp denote it. -/
theorem check_fields
    {t : Timestamp}
    (wholeMinutes : t.offset % 60000000 = 0) :
    t.fields.check = .ok t := by
  obtain ⟨year, year', month, month', day, day'⟩ := t.date_exists
  obtain ⟨hour, minute, second, micro⟩ := t.clock_valid
  have date : t.fields.date = t.date := by
    simp [Fields.date, fields, digitsValue_padded]
  have clock : t.fields.clockReading = t.clock := by
    simp [Fields.clockReading, fields, fieldValue, digitsValue_padded,
      fractionMicros_fractionDigits micro]
  have offset := offsetMicros_fields wholeMinutes
  have low := t.lt_offset
  have high := t.offset_lt
  have rebuilt := t.ofFields?_date
  rw [Fields.check, date, clock, offset]
  rw [if_neg (by omega), if_neg (by omega), if_neg (by omega), if_neg (by omega),
    if_neg (by omega), if_neg (by omega), if_neg (by omega), rebuilt]

theorem isAscii_fields
    (t : Timestamp) :
    t.fields.isAscii = true := by
  have fraction : ∀ c ∈ (fractionDigits t.clock.micro ++ List.replicate 6 '0').take 6,
      c.isDigit = true := by
    intro c member
    rcases List.mem_append.mp (List.mem_of_mem_take member) with member | member
    · rw [fractionDigits] at member
      split at member
      · cases member
      · exact isDigit_of_mem_padded member
    · rw [List.eq_of_mem_replicate member]
      rfl
  refine List.all_eq_true.mpr fun c member => ?_
  simp only [fields, List.mem_append, List.flatten_cons, List.flatten_nil, List.append_nil,
    Option.map_some, Option.getD_some] at member
  rcases member with ((((member | member) | member) | member | member | member) | inFraction) |
    member | member
  all_goals first | exact fraction c inFraction | exact isDigit_of_mem_padded member

theorem solid_text
    (t : Timestamp) :
    Text.Solid t.text := by
  have field : ∀ {width n}, Text.Solid (padded width n) := Text.solid_padded
  have optional : ∀ {absent : Prop} [Decidable absent] {mark : String} {width n : Nat},
      Text.Solid mark → Text.Solid (if absent then "" else mark ++ padded width n) := by
    intro absent _ mark width n hMark
    split
    · decide
    · exact hMark.append field
  have sign : Text.Solid (if t.offset < 0 then "-" else "+") := by
    split <;> decide
  have dash : Text.Solid "-" := by decide
  have colon : Text.Solid ":" := by decide
  have date : Text.Solid t.date.text :=
    (((field.append dash).append field).append dash).append field
  have clock : Text.Solid t.clock.text :=
    ((((field.append colon).append field).append colon).append field).append
      (optional (by decide))
  have zone : Text.Solid (offsetText t.offset) :=
    ((((sign.append field).append colon).append field).append (optional colon)).append
      (optional (by decide))
  exact ((date.append (by decide)).append clock).append zone

/-- Reading the text of a timestamp gives the timestamp. -/
theorem read_text
    {t : Timestamp}
    (wholeMinutes : t.offset % 60000000 = 0) :
    read t.text = .ok t := by
  rw [read, Text.strip_of_solid t.solid_text, rfc3339?_text, if_pos wholeMinutes]
  simp only [t.isAscii_fields, if_true]
  exact check_fields wholeMinutes

/-- The text of a timestamp whose offset is finer than minutes is refused. -/
theorem read_text_of_partialMinutes
    {t : Timestamp}
    (partialMinutes : t.offset % 60000000 ≠ 0) :
    read t.text = .error (.invalid t.text) := by
  rw [read, Text.strip_of_solid t.solid_text, rfc3339?_text, if_neg partialMinutes]

end Timestamp

/-! ### The wording of errors -/

theorem append_ne_empty
    {a b : String}
    (nonempty : a ≠ "") :
    a ++ b ≠ "" :=
  fun empty => nonempty (String.append_eq_empty_iff.mp empty).1

/-- No error is without words. -/
theorem TimestampError.message_ne_empty
    (e : TimestampError) :
    e.message ≠ "" := by
  cases e with
  | invalid text => exact append_ne_empty (by decide)
  | unreadable text => exact append_ne_empty (by decide)
  | badOffset micros => exact append_ne_empty (append_ne_empty (by decide))
  | badYear number => exact append_ne_empty (append_ne_empty (by decide))
  | badMonth => decide
  | badDay => decide
  | badHour => decide
  | badMinute => decide
  | badSecond => decide

end Time
end ExprLang
