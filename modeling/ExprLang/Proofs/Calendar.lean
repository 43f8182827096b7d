import Mathlib.Algebra.Ring.Nat
import Mathlib.Logic.Function.Iterate
import ExprLang.Time.Timestamp

/-!
# The calendar, day by day

Counting the days before a date undoes naming the date of a day.  Years before the first and after
9999 are those of the same calendar, whose rule repeats every 400 years.

* `dayNumber_dateOfDay`: the calendar round trip.
* `yearOf_eq_iff`: the year of a day, by the days on which years begin.
* `yearOf_bounds_iff`: the days of the years 1 to 9999.
* `next_spec`, `isLater_dateOfDay`: the calendar goes on day by day.
* `Timestamp.ofFields?_eq_some_iff`: timestamps by what calendar and clock show.
-/

namespace ExprLang
namespace Time

/-! ### Days and dates -/

/-- The month that a day falls in and the day within it make up the day. -/
theorem splitMonth_spec
    {lengths : List Nat} {day : Nat}
    (inside : day < lengths.sum) :
    (splitMonth lengths day).1 < lengths.length ∧
      (splitMonth lengths day).2 < lengths.getD (splitMonth lengths day).1 0 ∧
      (lengths.take (splitMonth lengths day).1).sum + (splitMonth lengths day).2 = day := by
  induction lengths generalizing day with
  | nil => simp at inside
  | cons length lengths ih =>
      rw [splitMonth]
      split
      · next first => simpa using first
      · next later =>
          rw [List.sum_cons] at inside
          have others : day - length < lengths.sum := by omega
          obtain ⟨month, within, total⟩ := ih others
          simp only [List.length_cons, List.getD_cons_succ, List.take_succ_cons, List.sum_cons]
          refine ⟨by omega, within, by omega⟩

/-- A day within a month is found in that month. -/
theorem splitMonth_take
    {lengths : List Nat} {month day : Nat}
    (within : day < lengths.getD month 0) :
    splitMonth lengths ((lengths.take month).sum + day) = (month, day) := by
  induction lengths generalizing month with
  | nil => simp at within
  | cons length lengths ih =>
      cases month with
      | zero =>
          have first : day < length := within
          simp [splitMonth, first]
      | succ month =>
          have later : ¬ length + (lengths.take month).sum + day < length := by omega
          have rest : length + (lengths.take month).sum + day - length =
              (lengths.take month).sum + day := by omega
          rw [List.take_succ_cons, List.sum_cons, splitMonth, if_neg later, rest, ih within]

/-- The days up to the end of a month are days of the year. -/
theorem sum_take_lt
    {lengths : List Nat} {month day : Nat}
    (within : day < lengths.getD month 0) :
    (lengths.take month).sum + day < lengths.sum := by
  induction lengths generalizing month with
  | nil => simp at within
  | cons length lengths ih =>
      cases month with
      | zero =>
          have first : day < length := within
          simp only [List.take_zero, List.sum_nil, List.sum_cons]
          omega
      | succ month =>
          have := ih within
          simp only [List.take_succ_cons, List.sum_cons]
          omega

/-- A day as cycles of 400 years, centuries, cycles of four years, single years and days.  Only the
last year of four can have 366 days, and in the last four years of a century only if the century
is the last of four, too. -/
theorem yearOfDay_parts
    (day : Nat) :
    ∃ years cycle century four single inYear,
      yearOfDay day = (years + 1, inYear) ∧
      years = cycle * 400 + century * 100 + four * 4 + single ∧
      century ≤ 3 ∧ four ≤ 24 ∧ single ≤ 3 ∧
      day = cycle * 146097 + century * 36524 + four * 1461 + single * 365 + inYear ∧
      (inYear < 365 ∨ inYear = 365 ∧ single = 3 ∧ (four = 24 → century = 3)) := by
  obtain ⟨cycle, hCycle⟩ : ∃ cycle, cycle = day / 146097 := ⟨_, rfl⟩
  obtain ⟨inCycle, hInCycle⟩ : ∃ inCycle, inCycle = day % 146097 := ⟨_, rfl⟩
  obtain ⟨century, hCentury⟩ : ∃ century, century = min 3 (inCycle / 36524) := ⟨_, rfl⟩
  obtain ⟨inCentury, hInCentury⟩ : ∃ rest, rest = inCycle - century * 36524 := ⟨_, rfl⟩
  obtain ⟨four, hFour⟩ : ∃ four, four = inCentury / 1461 := ⟨_, rfl⟩
  obtain ⟨inFour, hInFour⟩ : ∃ inFour, inFour = inCentury % 1461 := ⟨_, rfl⟩
  obtain ⟨single, hSingle⟩ : ∃ single, single = min 3 (inFour / 365) := ⟨_, rfl⟩
  have cycles : day = cycle * 146097 + inCycle ∧ inCycle < 146097 := by omega
  have centuries : century ≤ 3 ∧ inCycle = century * 36524 + inCentury ∧
      (inCentury < 36524 ∨ century = 3 ∧ inCentury ≤ 36524) := by
    clear hCycle hInCycle hFour hInFour hSingle
    omega
  have fours : inCentury = four * 1461 + inFour ∧ inFour < 1461 := by
    clear hCycle hInCycle hCentury hInCentury hSingle cycles centuries
    omega
  have singles : single ≤ 3 ∧ single * 365 ≤ inFour ∧
      (inFour - single * 365 < 365 ∨ single = 3 ∧ inFour - single * 365 ≤ 365) := by
    clear hCycle hInCycle hCentury hInCentury hFour hInFour cycles centuries
    omega
  have parts : yearOfDay day = (cycle * 400 + century * 100 + four * 4 + single + 1,
      inFour - single * 365) := by
    rw [hSingle, hInFour, hFour, hInCentury, hCentury, hInCycle, hCycle]
    rfl
  clear hCycle hInCycle hCentury hInCentury hFour hInFour hSingle
  exact ⟨_, cycle, century, four, single, _, parts, rfl, centuries.1, by omega, singles.1,
    by omega, by omega⟩

/-- The days of a year. -/
theorem sum_monthLengths :
    ∀ leap, (monthLengths leap).sum = if leap then 366 else 365 := by
  decide

/-- The year that a day falls in and the day of that year make up the day. -/
theorem yearOfDay_spec
    (day : Nat) :
    daysBeforeYear (yearOfDay day).1 + (yearOfDay day).2 = day ∧
      (yearOfDay day).2 < (monthLengths (isLeap (yearOfDay day).1)).sum := by
  obtain ⟨years, cycle, century, four, single, inYear, parts, hYears, hCentury, hFour, hSingle,
    total, last⟩ := yearOfDay_parts day
  rw [parts, sum_monthLengths]
  have fours : years / 4 = cycle * 100 + century * 25 + four := by omega
  have centuries : years / 100 = cycle * 4 + century := by omega
  have cycles : years / 400 = cycle := by omega
  constructor
  · simp only [daysBeforeYear, Nat.add_sub_cancel, fours, centuries, cycles]
    omega
  · rcases last with common | ⟨rfl, isLast, lastCentury⟩
    · dsimp only
      split <;> omega
    · clear parts fours centuries cycles total hCentury hSingle
      have fourth : (years + 1) % 4 = 0 := by
        omega
      have leap : isLeap (years + 1) = true := by
        by_cases lastFour : four = 24
        · have whole : (years + 1) % 400 = 0 := by
            have := lastCentury lastFour
            omega
          simp [isLeap, fourth, whole]
        · have within : (years + 1) % 100 ≠ 0 := by
            omega
          simp [isLeap, fourth, within]
      simp [leap]

theorem dateOfDay_of
    {day year inYear month inMonth : Nat}
    (ofDay : yearOfDay day = (year, inYear))
    (ofYear : splitMonth (monthLengths (isLeap year)) inYear = (month, inMonth)) :
    dateOfDay day = ⟨year, month + 1, inMonth + 1⟩ := by
  rw [dateOfDay, ofDay]
  dsimp only
  rw [ofYear]

theorem year_dateOfDay
    (day : Nat) :
    (dateOfDay day).year = (yearOfDay day).1 := by
  rcases ofDay : yearOfDay day with ⟨year, inYear⟩
  rcases ofYear : splitMonth (monthLengths (isLeap year)) inYear with ⟨month, inMonth⟩
  rw [dateOfDay_of ofDay ofYear]

/-- Counting the days before the date of a day gives the day. -/
theorem dayNumber_dateOfDay
    (day : Nat) :
    dayNumber (dateOfDay day) = day := by
  obtain ⟨total, inside⟩ := yearOfDay_spec day
  rcases ofDay : yearOfDay day with ⟨year, inYear⟩
  simp only [ofDay] at total inside
  obtain ⟨-, -, parts⟩ := splitMonth_spec inside
  rcases ofYear : splitMonth (monthLengths (isLeap year)) inYear with ⟨month, inMonth⟩
  simp only [ofYear] at parts
  rw [dateOfDay_of ofDay ofYear]
  simp only [dayNumber, daysBeforeMonth, Nat.add_sub_cancel, ← List.sum_eq_foldl]
  omega

/-! ### Years without end -/

/-- The day on which a year begins; the years before the first begin on negative days. -/
def firstDay (year : Int) : Int :=
  (year - 1) * 365 + (year - 1) / 4 - (year - 1) / 100 + (year - 1) / 400

/-- The year of a day, which may be negative. -/
def yearOf (day : Int) : Int :=
  day / 146097 * 400 + (yearOfDay (day % 146097).toNat).1

theorem firstDay_natCast
    {year : Nat}
    (positive : 1 ≤ year) :
    firstDay year = daysBeforeYear year := by
  unfold firstDay daysBeforeYear
  omega

theorem firstDay_add_cycles
    (year cycles : Int) :
    firstDay (cycles * 400 + year) = cycles * 146097 + firstDay year := by
  unfold firstDay
  omega

/-- A year is as long as its months. -/
theorem firstDay_succ
    (year : Nat) :
    firstDay (year + 1) = firstDay year + (monthLengths (isLeap year)).sum := by
  rw [sum_monthLengths]
  unfold firstDay
  by_cases leap : isLeap year = true
  · rw [if_pos leap]
    simp only [isLeap, Bool.and_eq_true, Bool.or_eq_true, decide_eq_true_eq, bne_iff_ne] at leap
    omega
  · rw [if_neg leap]
    simp only [isLeap, Bool.and_eq_true, Bool.or_eq_true, decide_eq_true_eq, bne_iff_ne] at leap
    omega

theorem firstDay_mono
    {year later : Int}
    (le : year ≤ later) :
    firstDay year ≤ firstDay later := by
  unfold firstDay
  omega

/-- A day lies between the beginnings of its year and of the next. -/
theorem yearOf_spec
    (day : Int) :
    firstDay (yearOf day) ≤ day ∧ day < firstDay (yearOf day + 1) := by
  obtain ⟨total, inside⟩ := yearOfDay_spec (day % 146097).toNat
  have positive : 1 ≤ (yearOfDay (day % 146097).toNat).1 := by simp [yearOfDay]
  rw [yearOf, Int.add_assoc, firstDay_add_cycles, firstDay_add_cycles, firstDay_succ,
    firstDay_natCast positive]
  omega

/-- Years do not overlap. -/
theorem yearOf_eq_iff
    {day year : Int} :
    yearOf day = year ↔ firstDay year ≤ day ∧ day < firstDay (year + 1) := by
  constructor
  · rintro rfl
    exact yearOf_spec day
  · rintro ⟨begun, before⟩
    obtain ⟨begun', before'⟩ := yearOf_spec day
    rcases Int.lt_trichotomy (yearOf day) year with earlier | same | later
    · have := firstDay_mono (show yearOf day + 1 ≤ year from earlier)
      omega
    · exact same
    · have := firstDay_mono (show year + 1 ≤ yearOf day from later)
      omega

/-- From day zero on it is the year of the calendar. -/
theorem yearOf_natCast
    (day : Nat) :
    yearOf day = (yearOfDay day).1 := by
  obtain ⟨total, inside⟩ := yearOfDay_spec day
  have positive : 1 ≤ (yearOfDay day).1 := by simp [yearOfDay]
  rw [yearOf_eq_iff, firstDay_succ, firstDay_natCast positive]
  omega

/-- The days of the years 1 to 9999. -/
theorem yearOf_bounds_iff
    {day : Int} :
    1 ≤ yearOf day ∧ yearOf day ≤ 9999 ↔ 0 ≤ day ∧ day < 3652059 := by
  obtain ⟨begun, before⟩ := yearOf_spec day
  have first : firstDay 1 = 0 := by decide
  have last : firstDay 10000 = 3652059 := by decide
  constructor
  · rintro ⟨low, high⟩
    have := firstDay_mono low
    have := firstDay_mono (show yearOf day + 1 ≤ 10000 by omega)
    omega
  · rintro ⟨low, high⟩
    constructor
    · refine Int.not_lt.mp fun early => ?_
      have := firstDay_mono (show yearOf day + 1 ≤ 1 from early)
      omega
    · refine Int.not_lt.mp fun late => ?_
      have := firstDay_mono (show 10000 ≤ yearOf day from late)
      omega

/-! ### Dates of the calendar -/

/-- Whether a date is one of the calendar, which has no last year. -/
def Date.InCalendar (date : Date) : Prop :=
  1 ≤ date.year ∧ 1 ≤ date.month ∧ 1 ≤ date.day ∧ date.day ≤ daysInMonth date.year date.month

theorem daysInMonth_of_pos
    {year month : Nat}
    (positive : 1 ≤ month) :
    daysInMonth year month = (monthLengths (isLeap year)).getD (month - 1) 0 := by
  rw [daysInMonth, if_neg (Nat.ne_of_gt positive)]

theorem Date.inCalendar_of_exists
    {date : Date}
    (valid : date.exists = true) :
    date.InCalendar := by
  simp only [Date.exists, Bool.and_eq_true, decide_eq_true_eq] at valid
  obtain ⟨⟨⟨⟨⟨year, -⟩, month⟩, -⟩, day⟩, within⟩ := valid
  exact ⟨year, month, day, within⟩

theorem Date.inCalendar_newYear
    {year : Nat}
    (positive : 1 ≤ year) :
    Date.InCalendar ⟨year, 1, 1⟩ := by
  have january : ∀ leap, 1 ≤ (monthLengths leap).getD (1 - 1) 0 := by decide
  refine ⟨positive, Nat.le_refl 1, Nat.le_refl 1, ?_⟩
  rw [daysInMonth_of_pos (Nat.le_refl 1)]
  exact january _

theorem dayNumber_newYear
    (year : Nat) :
    dayNumber ⟨year, 1, 1⟩ = daysBeforeYear year := by
  rfl

/-- There is no thirteenth month. -/
theorem Date.InCalendar.month_le
    {date : Date}
    (valid : date.InCalendar) :
    date.month ≤ 12 := by
  obtain ⟨-, positive, day, within⟩ := valid
  rw [daysInMonth_of_pos positive] at within
  by_contra beyond
  have twelve : ∀ leap, (monthLengths leap).length = 12 := by decide
  have none : (monthLengths (isLeap date.year)).getD (date.month - 1) 0 = 0 := by
    rw [List.getD_eq_getElem?_getD, List.getElem?_eq_none (by rw [twelve]; omega)]
    rfl
  omega

theorem inCalendar_dateOfDay
    (day : Nat) :
    (dateOfDay day).InCalendar := by
  have first : 1 ≤ (yearOfDay day).1 := by simp [yearOfDay]
  obtain ⟨-, inYear⟩ := yearOfDay_spec day
  rcases ofDay : yearOfDay day with ⟨year, rest⟩
  rw [ofDay] at first inYear
  obtain ⟨-, within, -⟩ := splitMonth_spec inYear
  rcases ofYear : splitMonth (monthLengths (isLeap year)) rest with ⟨month, inMonth⟩
  rw [ofYear] at within
  rw [dateOfDay_of ofDay ofYear]
  refine ⟨first, Nat.le_add_left 1 month, Nat.le_add_left 1 inMonth, ?_⟩
  rw [daysInMonth_of_pos (Nat.le_add_left 1 month)]
  exact within

/-- The date of a day of the years 1 to 9999 exists. -/
theorem dateOfDay_exists
    {day : Nat}
    (inside : day < 3652059) :
    1 ≤ (dateOfDay day).year ∧ (dateOfDay day).year ≤ 9999 ∧
      1 ≤ (dateOfDay day).month ∧ (dateOfDay day).month ≤ 12 ∧
      1 ≤ (dateOfDay day).day ∧
      (dateOfDay day).day ≤ daysInMonth (dateOfDay day).year (dateOfDay day).month := by
  have last : (dateOfDay day).year ≤ 9999 := by
    have bounds := yearOf_bounds_iff.mpr ⟨Int.natCast_nonneg day, Int.ofNat_lt.mpr inside⟩
    rw [yearOf_natCast, ← year_dateOfDay] at bounds
    exact Int.ofNat_le.mp bounds.2
  have months := (inCalendar_dateOfDay day).month_le
  obtain ⟨year, month, positive, within⟩ := inCalendar_dateOfDay day
  exact ⟨year, last, month, months, positive, within⟩

/-- Naming the date of a day undoes counting the days before it. -/
theorem dateOfDay_dayNumber
    {date : Date}
    (valid : date.InCalendar) :
    dateOfDay (dayNumber date) = date := by
  obtain ⟨year, month, day⟩ := date
  obtain ⟨hYear, hMonth, hDay, inMonth⟩ := valid
  rw [daysInMonth_of_pos hMonth] at inMonth
  dsimp only at hYear hMonth hDay inMonth
  have within : day - 1 < (monthLengths (isLeap year)).getD (month - 1) 0 := by omega
  have inYear := sum_take_lt within
  have number : dayNumber ⟨year, month, day⟩ = daysBeforeYear year +
      (((monthLengths (isLeap year)).take (month - 1)).sum + (day - 1)) := by
    rw [dayNumber, daysBeforeMonth, ← List.sum_eq_foldl, Nat.add_assoc]
  generalize dayNumber ⟨year, month, day⟩ = n at number
  have named : (yearOfDay n).1 = year := by
    have same : yearOf n = year := by
      rw [yearOf_eq_iff, firstDay_succ, firstDay_natCast hYear]
      omega
    rw [yearOf_natCast] at same
    omega
  obtain ⟨total, -⟩ := yearOfDay_spec n
  rw [named] at total
  have rest : (yearOfDay n).2 =
      ((monthLengths (isLeap year)).take (month - 1)).sum + (day - 1) := by
    omega
  rw [dateOfDay_of (Prod.ext named rest) (splitMonth_take within), Nat.sub_add_cancel hMonth,
    Nat.sub_add_cancel hDay]

/-! ### One day after another -/

/-- The date of the next day. -/
def Date.next (date : Date) : Date :=
  if date.day < daysInMonth date.year date.month then { date with day := date.day + 1 }
  else if date.month < 12 then ⟨date.year, date.month + 1, 1⟩
  else ⟨date.year + 1, 1, 1⟩

/-- Whether a date is a number of days later than another, or earlier if the number is negative. -/
def Date.IsLater (first : Date) (days : Int) (date : Date) : Prop :=
  Date.next^[days.toNat] first = Date.next^[(-days).toNat] date

/-- The months follow one another without a gap. -/
theorem daysBeforeMonth_succ :
    ∀ leap, ∀ month < 12, 1 ≤ month →
      daysBeforeMonth leap (month + 1) =
        daysBeforeMonth leap month + (monthLengths leap).getD (month - 1) 0 ∧
      1 ≤ (monthLengths leap).getD month 0 := by
  decide

/-- December ends the year. -/
theorem daysBeforeMonth_december :
    ∀ leap, daysBeforeMonth leap 12 + (monthLengths leap).getD (12 - 1) 0 =
      (monthLengths leap).sum := by
  decide

theorem daysBeforeYear_succ
    {year : Nat}
    (positive : 1 ≤ year) :
    daysBeforeYear (year + 1) = daysBeforeYear year + (monthLengths (isLeap year)).sum := by
  have length := firstDay_succ year
  have begins : firstDay ((year + 1 : Nat) : Int) = daysBeforeYear (year + 1) :=
    firstDay_natCast (Nat.le_add_left 1 year)
  push_cast at begins
  rw [begins, firstDay_natCast positive] at length
  omega

/-- The date of the next day is one of the calendar, and is the date of the next day. -/
theorem next_spec
    {date : Date}
    (valid : date.InCalendar) :
    date.next.InCalendar ∧ dayNumber date.next = dayNumber date + 1 := by
  have months := valid.month_le
  obtain ⟨year, month, day⟩ := date
  obtain ⟨hYear, hMonth, hDay, inMonth⟩ := valid
  dsimp only at hYear hMonth hDay inMonth months
  rw [Date.next]
  dsimp only
  split
  · next within =>
      refine ⟨⟨hYear, hMonth, Nat.le_add_left 1 day, within⟩, ?_⟩
      simp only [dayNumber]
      omega
  · next last =>
      rw [daysInMonth_of_pos hMonth] at inMonth last
      split
      · next more =>
          obtain ⟨before, begins⟩ := daysBeforeMonth_succ (isLeap year) month more hMonth
          constructor
          · refine ⟨hYear, Nat.le_add_left 1 month, Nat.le_refl 1, ?_⟩
            rw [daysInMonth_of_pos (Nat.le_add_left 1 month)]
            exact begins
          · simp only [dayNumber, before]
            omega
      · next december =>
          obtain rfl : month = 12 := by omega
          constructor
          · exact Date.inCalendar_newYear (Nat.le_add_left 1 year)
          · have december := daysBeforeMonth_december (isLeap year)
            have january : daysBeforeMonth (isLeap (year + 1)) 1 = 0 := rfl
            simp only [dayNumber, daysBeforeYear_succ hYear, january, ← december]
            omega

/-- The date of a later day is found by going on day by day. -/
theorem dateOfDay_add
    (day count : Nat) :
    dateOfDay (day + count) = Date.next^[count] (dateOfDay day) := by
  induction count with
  | zero => rw [Nat.add_zero, Function.iterate_zero_apply]
  | succ count ih =>
      obtain ⟨valid, number⟩ := next_spec (inCalendar_dateOfDay (day + count))
      rw [dayNumber_dateOfDay] at number
      rw [← Nat.add_assoc, Function.iterate_succ_apply', ← ih, ← number,
        dateOfDay_dayNumber valid]

/-- Dates are as far apart as their days. -/
theorem isLater_dateOfDay
    (first day : Nat) :
    (dateOfDay first).IsLater ((day : Int) - first) (dateOfDay day) := by
  have same : first + ((day : Int) - first).toNat = day + (-((day : Int) - first)).toNat := by
    omega
  rw [Date.IsLater, ← dateOfDay_add, ← dateOfDay_add, same]

example : Date.IsLater ⟨2000, 2, 28⟩ 2 ⟨2000, 3, 1⟩ := by rfl

/-! ### Readings -/

/-- Whether a clock shows such fields. -/
def Clock.Valid (c : Clock) : Prop :=
  c.hour < 24 ∧ c.minute < 60 ∧ c.second < 60 ∧ c.micro < 1000000

namespace Timestamp

theorem day_lt
    (t : Timestamp) :
    t.dayOf < 3652059 := by
  have low := t.wall_nonneg
  have high := t.wall_lt
  simp only [wallLimit] at high
  simp only [dayOf]
  omega

theorem clock_valid
    (t : Timestamp) :
    t.clock.Valid := by
  simp only [Clock.Valid, clock, clockOfMicros]
  omega

theorem date_exists
    (t : Timestamp) :
    1 ≤ t.date.year ∧ t.date.year ≤ 9999 ∧ 1 ≤ t.date.month ∧ t.date.month ≤ 12 ∧
      1 ≤ t.date.day ∧ t.date.day ≤ daysInMonth t.date.year t.date.month :=
  dateOfDay_exists t.day_lt

theorem ofWall?_eq_some_iff
    {wall offset : Int} {t : Timestamp} :
    ofWall? wall offset = some t ↔ t.wall = wall ∧ t.offset = offset := by
  unfold ofWall?
  constructor
  · intro h
    split at h
    · cases h
      exact ⟨rfl, rfl⟩
    · cases h
  · rintro ⟨rfl, rfl⟩
    rw [dif_pos ⟨⟨t.wall_nonneg, t.wall_lt⟩, t.lt_offset, t.offset_lt⟩]

/-- Date and clock make up the local reading. -/
theorem ofFields?_date
    (t : Timestamp) :
    ofFields? t.date t.clock t.offset = some t := by
  have low := t.wall_nonneg
  refine ofWall?_eq_some_iff.mpr ⟨?_, rfl⟩
  rw [date, dayNumber_dateOfDay]
  simp only [dayOf, clock, Clock.micros, clockOfMicros]
  omega

/-- A date that exists and a clock are the reading of a timestamp if it shows them. -/
theorem ofFields?_eq_some_iff
    {date : Date} {clock : Clock} {offset : Int} {t : Timestamp}
    (valid : date.exists = true)
    (onClock : clock.Valid) :
    ofFields? date clock offset = some t ↔
      t.date = date ∧ t.clock = clock ∧ t.offset = offset := by
  constructor
  · intro read
    obtain ⟨wall, rfl⟩ := ofWall?_eq_some_iff.mp read
    have parts : t.wall.toNat / 86400000000 = dayNumber date ∧
        t.wall.toNat % 86400000000 = clock.micros := by
      simp only [Clock.Valid, Clock.micros] at onClock wall ⊢
      omega
    refine ⟨?_, ?_, rfl⟩
    · rw [Timestamp.date, dayOf, parts.1, dateOfDay_dayNumber (Date.inCalendar_of_exists valid)]
    · obtain ⟨hour, minute, second, micro⟩ := clock
      rw [Timestamp.clock, parts.2]
      simp only [Clock.Valid, Clock.micros, clockOfMicros, Clock.mk.injEq] at onClock ⊢
      omega
  · rintro ⟨rfl, rfl, rfl⟩
    exact t.ofFields?_date

end Timestamp
end Time
end ExprLang
