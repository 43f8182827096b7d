import ExprLang.Time.Calendar
import ExprLang.Time.Duration

/-!
# Timestamps

A timestamp is a reading of a local clock and calendar together with the offset of that clock from
UTC.  The local reading lies in the years 1 to 9999 and the offset is shorter than a day.  Two
timestamps are ordered by the instants that they name, whatever their offsets.
-/

namespace ExprLang
namespace Time

/-- The first microsecond after the year 9999, counted from 0001-01-01. -/
def wallLimit : Int := 3652059 * 86400000000

/-- A local reading in microseconds since 0001-01-01T00:00:00, and the offset from UTC in
microseconds. -/
structure Timestamp where
  wall : Int
  offset : Int
  wall_nonneg : 0 ≤ wall
  wall_lt : wall < wallLimit
  lt_offset : -86400000000 < offset
  offset_lt : offset < 86400000000
deriving DecidableEq

/-- The fields of a clock. -/
structure Clock where
  hour : Nat
  minute : Nat
  second : Nat
  micro : Nat
deriving DecidableEq, Repr

/-- The microseconds since midnight. -/
def Clock.micros (c : Clock) : Nat :=
  ((c.hour * 60 + c.minute) * 60 + c.second) * 1000000 + c.micro

/-- The clock a number of microseconds after midnight. -/
def clockOfMicros (micros : Nat) : Clock where
  hour := micros / 3600000000
  minute := micros / 60000000 % 60
  second := micros / 1000000 % 60
  micro := micros % 1000000

namespace Timestamp

/-- The timestamp of a local reading and an offset, if the reading is in range. -/
def ofWall? (wall offset : Int) : Option Timestamp :=
  if h : (0 ≤ wall ∧ wall < wallLimit) ∧ (-86400000000 < offset ∧ offset < 86400000000) then
    some ⟨wall, offset, h.1.1, h.1.2, h.2.1, h.2.2⟩
  else
    none

/-- The same local reading at offset zero. -/
def atOffsetZero (t : Timestamp) : Timestamp :=
  { t with offset := 0, lt_offset := by decide, offset_lt := by decide }

@[ext]
theorem ext {t u : Timestamp} (hw : t.wall = u.wall) (ho : t.offset = u.offset) : t = u := by
  cases t; cases u; simp_all

/-- The instant that a timestamp names: microseconds of UTC since 0001-01-01T00:00:00. -/
def instant (t : Timestamp) : Int :=
  t.wall - t.offset

/-- 1970-01-01T00:00:00 at offset zero. -/
def epoch : Timestamp :=
  ⟨719162 * 86400000000, 0, by decide, by decide, by decide, by decide⟩

instance : Inhabited Timestamp := ⟨epoch⟩

/-- The local day. -/
def dayOf (t : Timestamp) : Nat :=
  t.wall.toNat / 86400000000

/-- The local date. -/
def date (t : Timestamp) : Date :=
  dateOfDay t.dayOf

/-- The local clock. -/
def clock (t : Timestamp) : Clock :=
  clockOfMicros (t.wall.toNat % 86400000000)

/-- The day of the local year, from zero. -/
def dayOfYear (t : Timestamp) : Nat :=
  (yearOfDay t.dayOf).2

/-- Moves the local reading on by a duration; the offset stays. -/
def add? (t : Timestamp) (d : Duration) : Option Timestamp :=
  ofWall? (t.wall + d.micros) t.offset

/-- Moves the local reading back by a duration; the offset stays. -/
def sub? (t : Timestamp) (d : Duration) : Option Timestamp :=
  ofWall? (t.wall - d.micros) t.offset

/-- The time from the second timestamp to the first. -/
def since? (t u : Timestamp) : Option Duration :=
  Duration.ofMicros? (t.instant - u.instant)

/-- The timestamp at offset zero a number of microseconds after the epoch. -/
def ofEpochMicros? (micros : Int) : Option Timestamp :=
  ofWall? (epoch.wall + micros) 0

/-- Whole seconds since the epoch, rounded down. -/
def unixSeconds (t : Timestamp) : Int :=
  (t.instant - epoch.instant) / 1000000

/-- The timestamp of a date, a clock and an offset. -/
def ofFields? (date : Date) (clock : Clock) (offset : Int) : Option Timestamp :=
  ofWall? (dayNumber date * 86400000000 + clock.micros) offset

end Timestamp
end Time
end ExprLang
