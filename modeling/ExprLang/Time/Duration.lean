/-!
# Durations

A duration is a whole number of microseconds of at most 999999999 days in magnitude; on the
positive side the last day may be full.
-/

namespace ExprLang
namespace Time

/-- The microseconds of a day. -/
def dayMicros : Int := 86400000000

/-- The microseconds of the shortest duration. -/
def minMicros : Int := -999999999 * 86400000000

/-- The microseconds of the longest duration. -/
def maxMicros : Int := 999999999 * 86400000000 + 86399999999

/-- A signed length of time. -/
structure Duration where
  micros : Int
  min_le : minMicros ≤ micros
  le_max : micros ≤ maxMicros
deriving DecidableEq

namespace Duration

/-- The duration of a number of microseconds, if that number is in range. -/
def ofMicros? (micros : Int) : Option Duration :=
  if h : minMicros ≤ micros ∧ micros ≤ maxMicros then some ⟨micros, h.1, h.2⟩ else none

/-- No time at all. -/
def zero : Duration := ⟨0, by decide, by decide⟩

instance : Inhabited Duration := ⟨zero⟩

@[ext]
theorem ext {d e : Duration} (h : d.micros = e.micros) : d = e := by
  cases d; cases e; simp_all

theorem ofMicros?_eq_some_iff {n : Int} {d : Duration} :
    ofMicros? n = some d ↔ d.micros = n := by
  unfold ofMicros?
  constructor
  · intro h
    split at h
    · cases h; rfl
    · cases h
  · rintro rfl
    simp [d.min_le, d.le_max]

@[simp]
theorem ofMicros?_micros (d : Duration) : ofMicros? d.micros = some d :=
  ofMicros?_eq_some_iff.2 rfl

/-- The sum of two durations, if it is in range. -/
def add? (d e : Duration) : Option Duration :=
  ofMicros? (d.micros + e.micros)

/-- The difference of two durations, if it is in range. -/
def sub? (d e : Duration) : Option Duration :=
  ofMicros? (d.micros - e.micros)

/-- The opposite of a duration, if it is in range. -/
def neg? (d : Duration) : Option Duration :=
  ofMicros? (-d.micros)

end Duration
end Time
end ExprLang
