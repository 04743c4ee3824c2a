import RateCurves.Calendar.Date

/-!
# Periods and frequencies

A period is a number of time units; a frequency says how often a year something recurs, and the
regular ones among them have a period.
-/

namespace RateCurves

structure Period where
  length : Int
  unit : TimeUnit
  deriving DecidableEq

/-- How often coupons are paid or interest is added. -/
inductive Frequency where
  | noFrequency
  | once
  | annual
  | semiannual
  | quarterly
  | bimonthly
  | monthly
  | weekly
  | daily
  deriving DecidableEq

namespace TimeUnit

def text : TimeUnit → String
  | .days => "Day(s)"
  | .weeks => "Week(s)"
  | .months => "Month(s)"
  | .years => "Year(s)"

/-- The letter of a unit in the text of a period. -/
def letter : TimeUnit → String
  | .days => "D"
  | .weeks => "W"
  | .months => "M"
  | .years => "Y"

end TimeUnit

namespace Period

def months (n : Int) : Period := ⟨n, .months⟩

def years (n : Int) : Period := ⟨n, .years⟩

instance : Neg Period := ⟨fun p => ⟨-p.length, p.unit⟩⟩

def times (p : Period) (n : Int) : Period := ⟨p.length * n, p.unit⟩

/-- The length followed by the letter of the unit, as in `3M`. -/
def text (p : Period) : String := toString p.length ++ p.unit.letter

end Period

def Date.advanceBy (date : Date) (p : Period) : Except DateError Date :=
  date.advance p.length p.unit

namespace Frequency

/-- How many periods a year holds, for the regular frequencies. -/
def perYear? : Frequency → Option Nat
  | .noFrequency | .once => none
  | .annual => some 1
  | .semiannual => some 2
  | .quarterly => some 4
  | .bimonthly => some 6
  | .monthly => some 12
  | .weekly => some 52
  | .daily => some 365

/-- The time from one occurrence to the next, for the regular frequencies. -/
def period? : Frequency → Option Period
  | .noFrequency | .once => none
  | .annual => some (.years 1)
  | .semiannual => some (.months 6)
  | .quarterly => some (.months 3)
  | .bimonthly => some (.months 2)
  | .monthly => some (.months 1)
  | .weekly => some ⟨1, .weeks⟩
  | .daily => some ⟨1, .days⟩

def text : Frequency → String
  | .noFrequency => "No-Frequency"
  | .once => "Once"
  | .annual => "Annual"
  | .semiannual => "Semiannual"
  | .quarterly => "Quarterly"
  | .bimonthly => "Bimonthly"
  | .monthly => "Monthly"
  | .weekly => "Weekly"
  | .daily => "Daily"

end Frequency

end RateCurves
