/-!
# Calendar dates

Dates of the proleptic Gregorian calendar from `Date.first` to `Date.last`, counted by a day number
in which the first of January of year one is day one. `dayNumber` and `ofDayNumber?` pass between
the two views; days are added on the day number, months on the year and month with the day cut to
the length of the month reached.
-/

namespace RateCurves

/-- Every fourth year is a leap year, of the full centuries only every fourth. -/
def isLeapYear (year : Int) : Bool :=
  year % 4 == 0 && (year % 100 != 0 || year % 400 == 0)

/-- The length of a month; there is no month zero, and it has no days. -/
def daysInMonth (year : Int) : Nat → Nat
  | 0 => 0
  | 2 => if isLeapYear year then 29 else 28
  | 4 | 6 | 9 | 11 => 30
  | _ => 31

/-- The days of the year before the first of `month`. -/
def daysBeforeMonth (year : Int) : Nat → Nat
  | 0 => 0
  | month + 1 => daysBeforeMonth year month + daysInMonth year month

/-- The day number of the last day before `year`. -/
def daysBeforeYear (year : Int) : Int :=
  let y := year - 1
  365 * y + y / 4 - y / 100 + y / 400

/-- A date: a year in range, a month of it and a day of that month. -/
structure Date where
  year : Int
  month : Nat
  day : Nat
  year_ge : -262143 ≤ year := by decide
  year_le : year ≤ 262142 := by decide
  month_pos : 1 ≤ month := by decide
  month_le : month ≤ 12 := by decide
  day_pos : 1 ≤ day := by decide
  day_le : day ≤ daysInMonth year month := by decide
  deriving DecidableEq

inductive DateError where
  | invalid (year : Int) (month day : Nat)
  | daysOutOfRange (start : Date) (days : Int)
  | monthsOutOfRange (start : Date) (months : Int)
  | yearsOverflow (years : Int)
  deriving DecidableEq

inductive TimeUnit where
  | days
  | weeks
  | months
  | years
  deriving DecidableEq

namespace Date

def first : Date := { year := -262143, month := 1, day := 1 }

def last : Date := { year := 262142, month := 12, day := 31 }

def ofParts? (year : Int) (month day : Nat) : Option Date :=
  if h : (-262143 ≤ year ∧ year ≤ 262142) ∧ (1 ≤ month ∧ month ≤ 12) ∧
      1 ≤ day ∧ day ≤ daysInMonth year month then
    some ⟨year, month, day, h.1.1, h.1.2, h.2.1.1, h.2.1.2, h.2.2.1, h.2.2.2⟩
  else none

/-- The date of a year, month and day, or the error that says what was asked for. -/
def ofParts (year : Int) (month day : Nat) : Except DateError Date :=
  match ofParts? year month day with
  | some date => .ok date
  | none => .error (.invalid year month day)

/-- Dates in the order of the calendar: by year, then month, then day. -/
protected def lt (a b : Date) : Prop :=
  a.year < b.year ∨ a.year = b.year ∧ (a.month < b.month ∨ a.month = b.month ∧ a.day < b.day)

instance : LT Date := ⟨Date.lt⟩

instance : LE Date := ⟨fun a b => a < b ∨ a = b⟩

instance (a b : Date) : Decidable (a < b) :=
  inferInstanceAs (Decidable (_ ∨ _ ∧ (_ ∨ _ ∧ _)))

instance (a b : Date) : Decidable (a ≤ b) :=
  inferInstanceAs (Decidable (a < b ∨ a = b))

/-! ## Day numbers -/

/-- The number of days from the last day before year one. -/
def dayNumber (date : Date) : Int :=
  daysBeforeYear date.year + daysBeforeMonth date.year date.month + date.day

/-- The year that holds a day number. The estimate from the mean length of a year is off by at most
one. -/
def yearOfDayNumber (n : Int) : Int :=
  let guess := (400 * (n - 1)) / 146097 + 1
  if n ≤ daysBeforeYear guess then guess - 1
  else if daysBeforeYear (guess + 1) < n then guess + 1
  else guess

/-- The month and day that lie `rest` days after the first of `month`, when `more` months follow in
the year. -/
def monthAndDay (year : Int) : (more month rest : Nat) → Nat × Nat
  | 0, month, rest => (month, rest + 1)
  | more + 1, month, rest =>
    if rest < daysInMonth year month then (month, rest + 1)
    else monthAndDay year more (month + 1) (rest - daysInMonth year month)

def ofDayNumber? (n : Int) : Option Date :=
  let year := yearOfDayNumber n
  let (month, day) := monthAndDay year 11 1 (n - daysBeforeYear year - 1).toNat
  ofParts? year month day

/-- The days from the first date to the second, negative if the second is earlier. -/
def daysBetween (a b : Date) : Int := b.dayNumber - a.dayNumber

/-! ## Arithmetic -/

def addDays (date : Date) (n : Int) : Except DateError Date :=
  match ofDayNumber? (date.dayNumber + n) with
  | some shifted => .ok shifted
  | none => .error (.daysOutOfRange date n)

/-- The date `n` months later, its day cut to the length of the month reached. -/
def addMonths (date : Date) (n : Int) : Except DateError Date :=
  let months := 12 * date.year + ((date.month : Int) - 1) + n
  let year := months / 12
  let month := (months % 12).toNat + 1
  match ofParts? year month (Nat.min date.day (daysInMonth year month)) with
  | some shifted => .ok shifted
  | none => .error (.monthsOutOfRange date n)

/-- The date `n` units later. Years are counted in months, and their number of months has to fit in
32 bits. -/
def advance (date : Date) (n : Int) : TimeUnit → Except DateError Date
  | .days => date.addDays n
  | .weeks => date.addDays (7 * n)
  | .months => date.addMonths n
  | .years =>
    if -2147483648 ≤ 12 * n ∧ 12 * n ≤ 2147483647 then date.addMonths (12 * n)
    else .error (.yearsOverflow n)

/-! ## Text -/

def padded (width n : Nat) : String :=
  let digits := toString n
  "".pushn '0' (width - digits.length) ++ digits

/-- Years from zero to 9999 have four digits, all others a sign and at least four. -/
def yearText (year : Int) : String :=
  if 0 ≤ year ∧ year ≤ 9999 then padded 4 year.toNat
  else (if year < 0 then "-" else "+") ++ padded 4 year.natAbs

def text (date : Date) : String :=
  s!"{yearText date.year}-{padded 2 date.month}-{padded 2 date.day}"

end Date

namespace DateError

def message : DateError → String
  | .invalid year month day =>
    s!"invalid date {year}-{Date.padded 2 month}-{Date.padded 2 day}"
  | .daysOutOfRange start days => s!"{start.text} + {days} days is out of range"
  | .monthsOutOfRange start months => s!"{start.text} + {months} months is out of range"
  | .yearsOverflow years => s!"{years} years overflows"

end DateError

end RateCurves
