import ExprLang.Proofs.Calendar
import ExprLang.Value.Container

/-!
# Arithmetic of times

A timestamp is a local reading and an offset.  Moving it moves the reading, so that what is out of
range is decided by the local year; comparing and subtracting timestamps goes by their instants.

* `Timestamp.localYear_bounds_iff`: the readings that a timestamp can have, by their years.
* `Timestamp.ofWall?_moved_iff`, `Timestamp.since?_eq`: moving, and the time between two timestamps.
* `arithmetic_of_times`: all operators on timestamps and durations.
-/

namespace ExprLang
namespace Time

/-! ### Durations -/

namespace Duration

theorem ofMicros?_eq_none_iff
    {n : Int} :
    ofMicros? n = none ↔ ¬ (minMicros ≤ n ∧ n ≤ maxMicros) := by
  unfold ofMicros?
  split <;> simp_all

end Duration

/-! ### Readings and their years -/

namespace Timestamp

/-- The year of a local reading, whether a timestamp can have it or not. -/
def localYear (wall : Int) : Int :=
  yearOf (wall / dayMicros)

/-- The local year of a timestamp is the year of its date. -/
theorem localYear_wall
    (t : Timestamp) :
    localYear t.wall = t.date.year := by
  have day : t.wall / dayMicros = t.dayOf := by
    have := t.wall_nonneg
    simp only [dayOf, dayMicros]
    omega
  rw [localYear, day, yearOf_natCast]
  rfl

/-- Timestamps have the readings of the years 1 to 9999. -/
theorem localYear_bounds_iff
    {wall : Int} :
    1 ≤ localYear wall ∧ localYear wall ≤ 9999 ↔ 0 ≤ wall ∧ wall < wallLimit := by
  rw [localYear, yearOf_bounds_iff]
  simp only [dayMicros, wallLimit]
  omega

/-- A reading at the offset of a timestamp fails for its year only. -/
theorem ofWall?_eq_none_iff
    {wall : Int}
    (t : Timestamp) :
    ofWall? wall t.offset = none ↔ ¬ (1 ≤ localYear wall ∧ localYear wall ≤ 9999) := by
  have low := t.lt_offset
  have high := t.offset_lt
  rw [localYear_bounds_iff, ofWall?]
  split <;> simp_all

/-- The reading that a timestamp has after a time, by the instant that it names. -/
theorem ofWall?_moved_iff
    {t s : Timestamp} {n : Int} :
    ofWall? (t.wall + n) t.offset = some s ↔ s.instant = t.instant + n ∧ s.offset = t.offset := by
  rw [ofWall?_eq_some_iff, instant, instant]
  omega

/-- Two instants are never further apart than a duration can be. -/
theorem since?_eq
    (t u : Timestamp) :
    ∃ d : Duration, t.since? u = some d ∧ d.micros = t.instant - u.instant := by
  have inRange : minMicros ≤ t.instant - u.instant ∧ t.instant - u.instant ≤ maxMicros := by
    have := t.wall_nonneg
    have := t.wall_lt
    have := t.lt_offset
    have := t.offset_lt
    have := u.wall_nonneg
    have := u.wall_lt
    have := u.lt_offset
    have := u.offset_lt
    simp only [instant, minMicros, maxMicros, wallLimit] at *
    omega
  exact ⟨⟨_, inRange.1, inRange.2⟩, Duration.ofMicros?_eq_some_iff.mpr rfl, rfl⟩

end Timestamp
end Time

open Time Time.Timestamp

namespace Value

/-- An outcome is a timestamp moved by a number of microseconds, at its offset, or the error if the
local year is out of range. -/
def Moves (t : Timestamp) (micros : Int) (overflow : RuntimeError) (outcome : Outcome Value) :
    Prop :=
  (∀ v, outcome = .ok v ↔
    ∃ s, v = timestamp s ∧ s.instant = t.instant + micros ∧ s.offset = t.offset) ∧
  ∀ e, outcome = .error e ↔
    ¬ (1 ≤ localYear (t.wall + micros) ∧ localYear (t.wall + micros) ≤ 9999) ∧ e = overflow

/-- An outcome is a duration of a number of microseconds, or the error if that is out of range. -/
def Lasts (micros : Int) (overflow : RuntimeError) (outcome : Outcome Value) : Prop :=
  (∀ v, outcome = .ok v ↔ ∃ d, v = duration d ∧ d.micros = micros) ∧
  ∀ e, outcome = .error e ↔ ¬ (minMicros ≤ micros ∧ micros ≤ maxMicros) ∧ e = overflow

theorem moves_timestampResult
    (t : Timestamp)
    (micros : Int)
    (op : String)
    (operands : List Operand) :
    Moves t micros (.overflow op operands)
      (timestampResult op (ofWall? (t.wall + micros) t.offset) operands) := by
  unfold Moves
  rw [← ofWall?_eq_none_iff]
  simp only [← ofWall?_moved_iff]
  cases ofWall? (t.wall + micros) t.offset <;> simp [timestampResult, eq_comm]

theorem lasts_durationResult
    (micros : Int)
    (op : String)
    (operands : List Operand) :
    Lasts micros (.overflow op operands)
      (durationResult op (Duration.ofMicros? micros) operands) := by
  unfold Lasts
  rw [← Duration.ofMicros?_eq_none_iff]
  simp only [← Duration.ofMicros?_eq_some_iff]
  cases Duration.ofMicros? micros <;> simp [durationResult, eq_comm]

/-! ### All operators -/

/-- What the operators make of timestamps and durations. -/
structure ExactTimes (t u v : Timestamp) (d e : Duration) : Prop where
  /-- Local readings are the dates of the calendar and the times of the clock, and the year that
  decides what is out of range is that of the date. -/
  calendar : ∀ date clock, date.exists = true → clock.Valid →
    (ofFields? date clock t.offset = some t ↔ t.date = date ∧ t.clock = clock)
  year : localYear t.wall = t.date.year
  timestamp_add : Moves t d.micros (.overflow "+" [.moment t, .length d])
    ((timestamp t).add (duration d))
  add_timestamp : Moves t d.micros (.overflow "+" [.length d, .moment t])
    ((duration d).add (timestamp t))
  timestamp_sub : Moves t (-d.micros) (.overflow "-" [.moment t, .length d])
    ((timestamp t).sub (duration d))
  add : Lasts (d.micros + e.micros) (.overflow "+" [.length d, .length e])
    ((duration d).add (duration e))
  sub : Lasts (d.micros - e.micros) (.overflow "-" [.length d, .length e])
    ((duration d).sub (duration e))
  neg : Lasts (-d.micros) (.overflow "-" [.length d, .nothing]) (duration d).neg
  /-- What is added can be taken away again. -/
  add_sub : ∀ s, (timestamp t).add (duration d) = .ok (timestamp s) →
    (timestamp s).sub (timestamp t) = .ok (duration d) ∧
      (timestamp s).sub (duration d) = .ok (timestamp t)
  /-- The times between timestamps are durations, which order them and add up. -/
  differences : ∃ f g h, (timestamp t).sub (timestamp u) = .ok (duration f) ∧
    (timestamp u).sub (timestamp v) = .ok (duration g) ∧
    (timestamp t).sub (timestamp v) = .ok (duration h) ∧
    f.micros = t.instant - u.instant ∧
    (timestamp t).compare (timestamp u) = .ok (Ord.compare f.micros 0) ∧
    (duration f).add (duration g) = .ok (duration h)

theorem sub_timestamps
    (t u : Timestamp) :
    ∃ d, (timestamp t).sub (timestamp u) = .ok (duration d) ∧
      d.micros = t.instant - u.instant := by
  obtain ⟨d, since, micros⟩ := since?_eq t u
  refine ⟨d, ?_, micros⟩
  rw [Value.sub, since]
  rfl

theorem compare_timestamps
    {t u : Timestamp} {d : Duration}
    (micros : d.micros = t.instant - u.instant) :
    (timestamp t).compare (timestamp u) = .ok (Ord.compare d.micros 0) := by
  have lt : t.instant < u.instant ↔ t.instant - u.instant < 0 := by omega
  have eq : t.instant = u.instant ↔ t.instant - u.instant = 0 := by omega
  have order : Ord.compare t.instant u.instant = Ord.compare d.micros 0 := by
    change compareOfLessAndEq _ _ = compareOfLessAndEq _ _
    simp only [compareOfLessAndEq, micros, lt, eq]
  rw [← order]
  rfl

/-- Arithmetic of times is exact or reported, and its operators fit together. -/
theorem arithmetic_of_times
    (t u v : Timestamp)
    (d e : Duration) :
    ExactTimes t u v d e := by
  constructor
  case calendar =>
    intro date clock valid onClock
    rw [ofFields?_eq_some_iff valid onClock]
    exact ⟨fun h => ⟨h.1, h.2.1⟩, fun h => ⟨h.1, h.2, rfl⟩⟩
  case year => exact localYear_wall t
  case timestamp_add => exact moves_timestampResult t d.micros "+" _
  case add_timestamp => exact moves_timestampResult t d.micros "+" _
  case timestamp_sub => exact moves_timestampResult t (-d.micros) "-" _
  case add => exact lasts_durationResult (d.micros + e.micros) "+" _
  case sub => exact lasts_durationResult (d.micros - e.micros) "-" _
  case neg => exact lasts_durationResult (-d.micros) "-" _
  case add_sub =>
    intro s moved
    obtain ⟨_, ⟨⟩, later, offset⟩ := ((moves_timestampResult t d.micros "+" _).1 _).mp moved
    constructor
    · obtain ⟨f, between, micros⟩ := sub_timestamps s t
      have same : f = d := Duration.ext (by omega)
      rw [between, same]
    · refine ((moves_timestampResult s (-d.micros) "-" _).1 _).mpr ⟨t, rfl, ?_, offset.symm⟩
      omega
  case differences =>
    obtain ⟨f, hf, first⟩ := sub_timestamps t u
    obtain ⟨g, hg, second⟩ := sub_timestamps u v
    obtain ⟨h, hh, whole⟩ := sub_timestamps t v
    refine ⟨f, g, h, hf, hg, hh, first, compare_timestamps first, ?_⟩
    exact ((lasts_durationResult (f.micros + g.micros) "+" _).1 _).mpr ⟨h, rfl, by omega⟩

/-- The last hour of the year 9999 at an offset west of UTC, which is in the year 10000 there, can
be moved by less than an hour. -/
theorem arithmetic_of_times_lastHour :
    let t : Timestamp :=
      ⟨315537894000000000, -3600000000, by decide, by decide, by decide, by decide⟩
    let hour : Duration := ⟨3600000000, by decide, by decide⟩
    let less : Duration := ⟨3599999999, by decide, by decide⟩
    (timestamp t).add (duration hour) = .error (.overflow "+" [.moment t, .length hour]) ∧
      ∃ s, (timestamp t).add (duration less) = .ok (timestamp s) ∧
        (timestamp s).sub (timestamp t) = .ok (duration less) ∧
        (timestamp s).sub (duration less) = .ok (timestamp t) := by
  intro t hour less
  have overflows := arithmetic_of_times t t t hour hour
  have moves := arithmetic_of_times t t t less less
  have added := (moves.timestamp_add.1 (timestamp ⟨315537897599999999, -3600000000, by decide,
    by decide, by decide, by decide⟩)).mpr ⟨_, rfl, rfl, rfl⟩
  exact ⟨(overflows.timestamp_add.2 _).mpr ⟨by decide, rfl⟩, _, added, moves.add_sub _ added⟩

end Value
end ExprLang
