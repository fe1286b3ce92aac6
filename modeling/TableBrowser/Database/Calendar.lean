import TableBrowser.Sql.Reader

/-!
# Dates as text

Moments are counted in seconds of UTC from the start of 1970 and written by the
Gregorian calendar, which is extended to all years.  A change by months or years
keeps the day of the month and runs over into the next month when that is too
short.  Moments outside the years that can be written have no text.
-/

namespace TableBrowser.Database

open TableBrowser.Filter
open TableBrowser.Sql

def secondsPerDay : Int := 86400

/-- The first second that can be written, in the year before 4712 BC. -/
def firstSecond : Int := -210866760000

def lastSecond : Int := 253402300799

structure CivilDate where
  year : Int
  month : Int
  day : Int
  deriving DecidableEq

/-- Days from the start of 1970 to a date.  January and February count as the last months
of the year before.  The number of centuries is cut toward zero, so that before the year 0
the year from March of a century on begins a day late unless it has a leap day. -/
def CivilDate.dayNumber (date : CivilDate) : Int :=
  let (year, month) :=
    if date.month ≤ 2 then (date.year - 1, date.month + 12) else (date.year, date.month)
  let century := Int.tdiv year 100
  let shift := Int.tdiv century 4 - century
  Int.tdiv (36525 * (year + 4716)) 100 + Int.tdiv (306001 * (month + 1)) 10000 + date.day +
    shift - 2442110

def CivilDate.ofDayNumber (days : Int) : CivilDate :=
  let shifted := days + 719468
  let era := Int.fdiv shifted 146097
  let dayOfEra := shifted - era * 146097
  let yearOfEra := Int.fdiv (dayOfEra - Int.fdiv dayOfEra 1460 + Int.fdiv dayOfEra 36524 -
    Int.fdiv dayOfEra 146096) 365
  let dayOfYear := dayOfEra - (365 * yearOfEra + Int.fdiv yearOfEra 4 - Int.fdiv yearOfEra 100)
  let monthFromMarch := Int.fdiv (5 * dayOfYear + 2) 153
  let day := dayOfYear - Int.fdiv (153 * monthFromMarch + 2) 5 + 1
  let month := if monthFromMarch < 10 then monthFromMarch + 3 else monthFromMarch - 9
  let year := yearOfEra + era * 400
  ⟨if month ≤ 2 then year + 1 else year, month, day⟩

def padded (count : Nat) (n : Nat) : Text :=
  let digits := Text.ofNat n
  List.replicate (count - digits.length) '0' ++ digits

def dateText (seconds : Int) : Text :=
  let date := CivilDate.ofDayNumber (Int.fdiv seconds secondsPerDay)
  (if date.year < 0 then ['-'] else []) ++ padded 4 date.year.natAbs ++ "-" ++
    padded 2 date.month.toNat ++ "-" ++ padded 2 date.day.toNat

def timeText (seconds : Int) : Text :=
  let second := (Int.fmod seconds secondsPerDay).toNat
  padded 2 (second / 3600) ++ ":" ++ padded 2 (second / 60 % 60) ++ ":" ++ padded 2 (second % 60)

/-- The largest change that is accepted in a unit. -/
def changeLimit : DateUnit → Nat
  | .hour => 128970000000
  | .day | .week => 5373485
  | .month => 176546
  | .year => 14713

/-- The moment a number of months earlier; an overlong day runs over. -/
def monthsBefore (seconds : Int) (months : Nat) : Int :=
  let days := Int.fdiv seconds secondsPerDay
  let date := CivilDate.ofDayNumber days
  let count := date.year * 12 + (date.month - 1) - months
  let moved : CivilDate := ⟨Int.fdiv count 12, Int.fmod count 12 + 1, date.day⟩
  seconds + (moved.dayNumber - days) * secondsPerDay

/-- The moment an amount of units earlier. -/
def secondsBefore (seconds : Int) (amount : Nat) : DateUnit → Int
  | .hour => seconds - amount * 3600
  | .day => seconds - amount * secondsPerDay
  | .week => seconds - amount * 7 * secondsPerDay
  | .month => monthsBefore seconds amount
  | .year => monthsBefore seconds (amount * 12)

/-- The text of a moment relative to a given second, if it can be written. -/
def momentText? (now : Int) (moment : Moment) : Option Text :=
  let seconds? :=
    match moment.back? with
    | none => some now
    | some (amount, unit) =>
      if amount < changeLimit unit then some (secondsBefore now amount unit) else none
  match seconds? with
  | none => none
  | some seconds =>
    if firstSecond ≤ seconds ∧ seconds ≤ lastSecond then
      some (if moment.dateOnly then dateText seconds
        else dateText seconds ++ " " ++ timeText seconds)
    else none

end TableBrowser.Database
