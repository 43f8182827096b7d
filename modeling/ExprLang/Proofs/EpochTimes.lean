import Mathlib.Order.Bounds.Defs
import ExprLang.Proofs.StandardCalls
import ExprLang.Proofs.TimeArithmetic

/-!
# Seconds since the epoch

The timestamp of a number of seconds since 1970-01-01 shows the date and the time of day that this
number gives, and the number of seconds since the epoch is that of every timestamp rounded down.

* `gives_field`: what a function that shows a field of a timestamp gives.
* `clock_of_seconds`, `dayOf_of_seconds`: the time of day and the day of a number of seconds.
* `epoch_conversion`: seconds to timestamps, their fields, and back.
-/

namespace ExprLang

open Time Time.Timestamp

/-! ### Fields of a timestamp -/

namespace Stdlib

/-- Whether a standard function makes an outcome of a value, wherever it is called. -/
def Gives
    (now : Timestamp)
    (name : String)
    (v : Value)
    (outcome : Outcome Value) : Prop :=
  ∀ debug depth site,
    Eval.Yields (Eval.callFunction ⟨[Scope.standard now], debug⟩ (depth + 1) site name [v]) outcome

variable {now : Timestamp}

theorem Gives.unique
    {name : String} {v : Value} {x y : Outcome Value}
    (first : Gives now name v x)
    (second : Gives now name v y) :
    x = y :=
  (first false 0 none).unique (second false 0 none)

/-- A function that shows a field of a timestamp gives it, as all fields are in range. -/
theorem gives_field
    {name : String} {t : Timestamp}
    (field : Timestamp → Int)
    (member : (name, onTimestamp field) ∈ entries now)
    (inRange : InIntRange (field t)) :
    Gives now name (.timestamp t) (.ok (.int (field t))) := by
  intro debug depth site
  have value : (HostObject.int (field t)).toValue = .ok (.int (field t)) := by
    rw [HostObject.toValue, if_pos inRange]
  exact Eval.yields_entry [.timestamp t] (.int (field t)) (overloads?_standard member) rfl rfl
    value depth

/-- The timestamp of a number of seconds, if there is one. -/
theorem gives_timestamp
    {n : Int} {t : Timestamp}
    (found : ofEpochMicros? (n * 1000000) = some t) :
    Gives now "timestamp" (.int n) (.ok (.timestamp t)) := by
  intro debug depth site
  have member : ("timestamp", timestampEntry) ∈ entries now := by simp [entries]
  refine Eval.yields_entry [.value (.int n)] (.timestamp t) (overloads?_standard member) rfl ?_ rfl
    depth
  change ofEpochSeconds n = _
  rw [ofEpochSeconds, found]

/-- A number of seconds that no timestamp has is an overflow. -/
theorem gives_timestamp_overflow
    {n : Int}
    (absent : ofEpochMicros? (n * 1000000) = none) :
    Gives now "timestamp" (.int n) (.error (.overflow "timestamp" [.value (.int n)])) := by
  intro debug depth site
  have member : ("timestamp", timestampEntry) ∈ entries now := by simp [entries]
  have bound : (timestampEntry.function "timestamp").bind [.int n] = .ok [.value (.int n)] := rfl
  have fails : (timestampEntry.function "timestamp").body ⟨"timestamp", site⟩ [.value (.int n)] =
      .fail (.overflow "timestamp" [.value (.int n)]) := by
    change ofEpochSeconds n = _
    rw [ofEpochSeconds, absent]
  refine Eval.yields_callFunction (overloads?_standard member) bound ?_
  rw [fails]
  exact .fail _

end Stdlib

/-! ### Seconds as days and times of day -/

namespace Time

/-- The seconds of a clock are those of the microseconds that it shows. -/
theorem seconds_clockOfMicros
    (micros : Nat) :
    (clockOfMicros micros).hour * 3600 + (clockOfMicros micros).minute * 60 +
      (clockOfMicros micros).second = micros / 1000000 := by
  simp only [clockOfMicros]
  omega

namespace Timestamp

variable {n : Int} {t : Timestamp}

/-- The local reading of a number of seconds. -/
theorem wall_of_seconds
    (found : ofEpochMicros? (n * 1000000) = some t) :
    t.wall = 719162 * 86400000000 + n * 1000000 ∧ t.offset = 0 :=
  ofWall?_eq_some_iff.mp found

/-- The seconds whose timestamps lie in the years 1 to 9999. -/
theorem exists_ofEpochMicros?_iff :
    (∃ t, ofEpochMicros? (n * 1000000) = some t) ↔ -62135596800 ≤ n ∧ n ≤ 253402300799 := by
  constructor
  · rintro ⟨t, found⟩
    have wall := (wall_of_seconds found).1
    have low := t.wall_nonneg
    have high := t.wall_lt
    simp only [wallLimit] at high
    omega
  · intro inside
    have inRange : 0 ≤ epoch.wall + n * 1000000 ∧ epoch.wall + n * 1000000 < wallLimit := by
      simp only [epoch, wallLimit]
      omega
    exact ⟨⟨_, 0, inRange.1, inRange.2, by decide, by decide⟩,
      ofWall?_eq_some_iff.mpr ⟨rfl, rfl⟩⟩

theorem dayOf_of_seconds
    (found : ofEpochMicros? (n * 1000000) = some t) :
    (t.dayOf : Int) = n / 86400 + 719162 := by
  have wall := (wall_of_seconds found).1
  have nonneg := t.wall_nonneg
  simp only [dayOf]
  omega

theorem clock_of_seconds
    (found : ofEpochMicros? (n * 1000000) = some t) :
    (t.clock.hour : Int) * 3600 + t.clock.minute * 60 + t.clock.second = n % 86400 := by
  have wall := (wall_of_seconds found).1
  have nonneg := t.wall_nonneg
  have seconds := seconds_clockOfMicros (t.wall.toNat % 86400000000)
  have same : ((t.wall.toNat % 86400000000 / 1000000 : Nat) : Int) = n % 86400 := by omega
  rw [← same, ← seconds]
  push_cast
  rfl

theorem unixSeconds_of_seconds
    (found : ofEpochMicros? (n * 1000000) = some t) :
    t.unixSeconds = n := by
  obtain ⟨wall, offset⟩ := wall_of_seconds found
  simp only [unixSeconds, instant, wall, offset, epoch]
  omega

/-- The first of January of a year is as many days before a timestamp of the year as its day of the
year counts. -/
theorem isLater_january
    (t : Timestamp) :
    Date.IsLater ⟨t.date.year, 1, 1⟩ t.dayOfYear t.date := by
  obtain ⟨total, -⟩ := yearOfDay_spec t.dayOf
  have january := Date.inCalendar_newYear t.date_exists.1
  have later := isLater_dateOfDay (dayNumber ⟨t.date.year, 1, 1⟩) t.dayOf
  have same : (t.dayOf : Int) - dayNumber ⟨t.date.year, 1, 1⟩ = t.dayOfYear := by
    rw [← year_dateOfDay, ← date, ← dayOfYear] at total
    rw [dayNumber_newYear]
    omega
  rw [dateOfDay_dayNumber january, same] at later
  exact later

theorem dayOfYear_lt
    (t : Timestamp) :
    t.dayOfYear < 366 := by
  obtain ⟨-, inYear⟩ := yearOfDay_spec t.dayOf
  rw [sum_monthLengths] at inYear
  rw [dayOfYear]
  split at inYear <;> omega

theorem isGreatest_unixSeconds
    (t : Timestamp) :
    IsGreatest {n : Int | n * 1000000 ≤ t.instant - epoch.instant} t.unixSeconds := by
  constructor
  · change t.unixSeconds * 1000000 ≤ t.instant - epoch.instant
    simp only [unixSeconds]
    omega
  · intro n within
    change n * 1000000 ≤ t.instant - epoch.instant at within
    simp only [unixSeconds]
    omega

/-- The seconds since the epoch are a number that the language has. -/
theorem inIntRange_unixSeconds
    (t : Timestamp) :
    InIntRange t.unixSeconds := by
  have := t.wall_nonneg
  have := t.wall_lt
  have := t.lt_offset
  have := t.offset_lt
  simp only [wallLimit] at *
  simp only [InIntRange, minInt, maxInt, unixSeconds, instant, epoch]
  omega

end Timestamp
end Time

/-! ### The conversion -/

open Stdlib

/-- What the functions on timestamps give for the timestamp a number of seconds after the epoch. -/
structure ShowsSeconds (now : Timestamp) (n : Int) (t : Timestamp) : Prop where
  unix : Gives now "unix" (.timestamp t) (.ok (.int n))
  clock : ∃ hours minutes seconds : Nat,
    Gives now "getHours" (.timestamp t) (.ok (.int hours)) ∧
    Gives now "getMinutes" (.timestamp t) (.ok (.int minutes)) ∧
    Gives now "getSeconds" (.timestamp t) (.ok (.int seconds)) ∧
    minutes < 60 ∧ seconds < 60 ∧ (hours : Int) * 3600 + minutes * 60 + seconds = n % 86400
  weekday : Gives now "getDayOfWeek" (.timestamp t) (.ok (.int ((n / 86400 + 4) % 7)))
  /-- The fields name the date that is reached from 1970-01-01 by going on or back day by day. -/
  calendar : ∃ (date : Date) (dayOfYear : Nat),
    date.exists = true ∧ Date.IsLater ⟨1970, 1, 1⟩ (n / 86400) date ∧
    Gives now "getFullYear" (.timestamp t) (.ok (.int date.year)) ∧
    Gives now "getMonth" (.timestamp t) (.ok (.int (date.month - 1))) ∧
    Gives now "getDate" (.timestamp t) (.ok (.int date.day)) ∧
    Gives now "getDayOfMonth" (.timestamp t) (.ok (.int (date.day - 1))) ∧
    Gives now "getDayOfYear" (.timestamp t) (.ok (.int dayOfYear)) ∧
    Date.IsLater ⟨date.year, 1, 1⟩ dayOfYear date

/-- What becomes of a number of seconds since the epoch. -/
structure ConvertsSeconds (now : Timestamp) (n : Int) : Prop where
  succeeds_iff : (∃ v, Gives now "timestamp" (.int n) (.ok v)) ↔
    -62135596800 ≤ n ∧ n ≤ 253402300799
  overflows : ¬ (-62135596800 ≤ n ∧ n ≤ 253402300799) →
    Gives now "timestamp" (.int n) (.error (.overflow "timestamp" [.value (.int n)]))
  shows : ∀ v, Gives now "timestamp" (.int n) (.ok v) →
    ∃ t, v = .timestamp t ∧ ShowsSeconds now n t

/-- What the seconds since the epoch are for a timestamp: the most whole seconds that its time from
1970-01-01T00:00:00 at offset zero has. -/
def CountsSeconds (now t : Timestamp) : Prop :=
  ∃ (start : Timestamp) (d : Duration) (n : Int),
    ofFields? ⟨1970, 1, 1⟩ ⟨0, 0, 0, 0⟩ 0 = some start ∧
    (Value.timestamp t).sub (.timestamp start) = .ok (.duration d) ∧
    Gives now "unix" (.timestamp t) (.ok (.int n)) ∧
    IsGreatest {k : Int | k * 1000000 ≤ d.micros} n

/-- Small numbers are in range. -/
theorem inIntRange_of_small
    {n : Int}
    (low : -10000 ≤ n)
    (high : n ≤ 10000) :
    InIntRange n := by
  simp only [InIntRange, minInt, maxInt]
  omega

theorem showsSeconds
    {now t : Timestamp} {n : Int}
    (found : ofEpochMicros? (n * 1000000) = some t) :
    ShowsSeconds now n t := by
  have day := dayOf_of_seconds found
  obtain ⟨hour, minute, second, -⟩ := t.clock_valid
  obtain ⟨firstYear, lastYear, firstMonth, lastMonth, firstDay, lastDay⟩ := t.date_exists
  have shortMonth := daysInMonth_lt t.date.year t.date.month
  constructor
  case unix =>
    have shown : Gives now "unix" (.timestamp t) (.ok (.int t.unixSeconds)) :=
      gives_field (fun t => t.unixSeconds) (by simp [entries]) t.inIntRange_unixSeconds
    rwa [unixSeconds_of_seconds found] at shown
  case clock =>
    refine ⟨t.clock.hour, t.clock.minute, t.clock.second, ?_, ?_, ?_, minute, second,
      clock_of_seconds found⟩
    · exact gives_field (fun t => t.clock.hour) (by simp [entries])
        (inIntRange_of_small (by omega) (by omega))
    · exact gives_field (fun t => t.clock.minute) (by simp [entries])
        (inIntRange_of_small (by omega) (by omega))
    · exact gives_field (fun t => t.clock.second) (by simp [entries, secondEntry])
        (inIntRange_of_small (by omega) (by omega))
  case weekday =>
    have shown : Gives now "getDayOfWeek" (.timestamp t) (.ok (.int (weekday t.dayOf))) :=
      gives_field (fun t => weekday t.dayOf) (by simp [entries])
        (inIntRange_of_small (by simp only [weekday]; omega) (by simp only [weekday]; omega))
    have same : ((weekday t.dayOf : Nat) : Int) = (n / 86400 + 4) % 7 := by
      simp only [weekday]
      omega
    rwa [same] at shown
  case calendar =>
    have shortYear := t.dayOfYear_lt
    refine ⟨t.date, t.dayOfYear, ?_, ?_, ?_, ?_, ?_, ?_, ?_, t.isLater_january⟩
    · simp [Date.exists, firstYear, lastYear, firstMonth, lastMonth, firstDay, lastDay]
    · have later := isLater_dateOfDay 719162 t.dayOf
      have first : dateOfDay 719162 = ⟨1970, 1, 1⟩ := by decide
      have same : (t.dayOf : Int) - (719162 : Nat) = n / 86400 := by omega
      rwa [first, same] at later
    · exact gives_field (fun t => t.date.year) (by simp [entries, yearEntry])
        (inIntRange_of_small (by omega) (by omega))
    · exact gives_field (fun t => (t.date.month : Int) - 1) (by simp [entries, monthEntry])
        (inIntRange_of_small (by omega) (by omega))
    · exact gives_field (fun t => t.date.day) (by simp [entries])
        (inIntRange_of_small (by omega) (by omega))
    · exact gives_field (fun t => (t.date.day : Int) - 1) (by simp [entries])
        (inIntRange_of_small (by omega) (by omega))
    · exact gives_field (fun t => t.dayOfYear) (by simp [entries])
        (inIntRange_of_small (by omega) (by omega))

theorem convertsSeconds
    (now : Timestamp)
    (n : Int) :
    ConvertsSeconds now n := by
  rcases found : ofEpochMicros? (n * 1000000) with _ | t
  · have overflows : Gives now "timestamp" (.int n) (.error (.overflow "timestamp" _)) :=
      gives_timestamp_overflow found
    have outside : ¬ (-62135596800 ≤ n ∧ n ≤ 253402300799) := by
      rw [← exists_ofEpochMicros?_iff, found]
      simp
    have never : ∀ v, ¬ Gives now "timestamp" (.int n) (.ok v) := by
      intro v succeeds
      cases succeeds.unique overflows
    exact ⟨by simp [never, outside], fun _ => overflows,
      fun v succeeds => absurd succeeds (never v)⟩
  · have succeeds : Gives now "timestamp" (.int n) (.ok (.timestamp t)) := gives_timestamp found
    have inside := exists_ofEpochMicros?_iff.mp ⟨t, found⟩
    refine ⟨⟨fun _ => inside, fun _ => ⟨_, succeeds⟩⟩, fun outside => absurd inside outside, ?_⟩
    intro v other
    cases other.unique succeeds
    exact ⟨t, rfl, showsSeconds found⟩

theorem countsSeconds
    (now t : Timestamp) :
    CountsSeconds now t := by
  obtain ⟨d, between, micros⟩ := Value.sub_timestamps t epoch
  have start : ofFields? ⟨1970, 1, 1⟩ ⟨0, 0, 0, 0⟩ 0 = some epoch :=
    ofWall?_eq_some_iff.mpr ⟨rfl, rfl⟩
  refine ⟨epoch, d, t.unixSeconds, start, between, ?_, ?_⟩
  · exact gives_field (fun t => t.unixSeconds) (by simp [entries]) t.inIntRange_unixSeconds
  · rw [micros]
    exact t.isGreatest_unixSeconds

/-- A number of seconds is the timestamp that shows its day and its time of day, or an overflow
outside the years 1 to 9999; a timestamp has the whole seconds since the epoch. -/
theorem epoch_conversion
    (now : Timestamp) :
    (∀ n, ConvertsSeconds now n) ∧ ∀ t, CountsSeconds now t :=
  ⟨convertsSeconds now, countsSeconds now⟩

end ExprLang
