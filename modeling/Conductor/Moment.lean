/-!
# Moments

A moment of the calendar, from the seconds since the start of 1970. Years are laid
out in eras of four hundred, which all have the same number of days, and begin in
March, so that the day that comes and goes is the last of its year.
-/

set_option autoImplicit false

namespace Conductor

structure Moment where
  year : Nat := 2025
  month : Nat := 1
  day : Nat := 15
  weekday : Nat := 2
  hour : Nat := 12
  minute : Nat := 0
  second : Nat := 0
  microsecond : Nat := 0
  epoch : Nat := 1736942400
  deriving DecidableEq, Repr, Inhabited

namespace Moment

def civil (days : Nat) : Nat × Nat × Nat :=
  let z := days + 719468
  let inEra := z % 146097
  let yearOfEra := (inEra - inEra / 1460 + inEra / 36524 - inEra / 146096) / 365
  let dayOfYear := inEra - (365 * yearOfEra + yearOfEra / 4 - yearOfEra / 100)
  let march := (5 * dayOfYear + 2) / 153
  let day := dayOfYear - (153 * march + 2) / 5 + 1
  let month := if march < 10 then march + 3 else march - 9
  (yearOfEra + z / 146097 * 400 + (if month ≤ 2 then 1 else 0), month, day)

def ofEpoch (seconds microsecond : Nat) : Moment :=
  let days := seconds / 86400
  let rest := seconds % 86400
  let (year, month, day) := civil days
  { year, month, day, weekday := (days + 3) % 7, hour := rest / 3600, minute := rest % 3600 / 60, second := rest % 60
    microsecond, epoch := seconds }

example : civil 0 = (1970, 1, 1) := rfl
example : civil 11016 = (2000, 2, 29) := rfl
example : civil 20103 = (2025, 1, 15) := rfl

end Moment

end Conductor
