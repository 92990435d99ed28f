import TagQuery.Text

/-! Times in words. Years are counted from March, so that a leap day is the last day of its year. -/
namespace TagQuery.Calendar

structure Day where
  year : Nat
  month : Nat
  day : Nat
  deriving DecidableEq, Repr

/-- The days from the first of March of the year 0 to the first of January 1970. -/
def daysBefore1970 : Nat := 719468

/-- The days of 400 years. -/
def daysOfCycle : Nat := 146097

/-- The day that lies so many days after the first of January 1970. -/
def Day.ofNumber (number : Nat) : Day :=
  let shifted := number + daysBefore1970
  let inCycle := shifted % daysOfCycle
  let years := (inCycle - inCycle / 1460 + inCycle / 36524 - inCycle / 146096) / 365
  let inYear := inCycle - (365 * years + years / 4 - years / 100)
  let months := (5 * inYear + 2) / 153
  let year := shifted / daysOfCycle * 400 + years
  { year := if months < 10 then year else year + 1
    month := if months < 10 then months + 3 else months - 9
    day := inYear - (153 * months + 2) / 5 + 1 }

/-- The second that lies so many seconds after the beginning of 1970, in words. -/
def timeText (seconds : Nat) : Text :=
  let day := Day.ofNumber (seconds / 86400)
  let inDay := seconds % 86400
  Text.joinWith ['-'] [Text.padded 4 day.year, Text.padded 2 day.month, Text.padded 2 day.day] ++
    [' '] ++ Text.joinWith [':'] [Text.padded 2 (inDay / 3600), Text.padded 2 (inDay / 60 % 60),
      Text.padded 2 (inDay % 60)]

example : timeText 951827696 = "2000-02-29 12:34:56".toList := by decide +kernel
example : timeText 0 = "1970-01-01 00:00:00".toList := by decide +kernel

end TagQuery.Calendar
