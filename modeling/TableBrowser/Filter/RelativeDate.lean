import TableBrowser.Text.Digits

/-!
# Relative dates

Values such as `@today` and `@7d` stand for a date relative to the moment of
evaluation.  They stay symbolic here: the database works them out, and no moment
is fixed while a filter is read.
-/

namespace TableBrowser.Filter

inductive DateUnit
  | hour
  | day
  | week
  | month
  | year
  deriving DecidableEq

inductive RelativeDate
  | now
  | today
  | yesterday
  | ago (amount : UInt32) (unit : DateUnit)
  deriving DecidableEq

namespace DateUnit

/-- The singular English name. -/
def name : DateUnit → Text
  | .hour => "hour"
  | .day => "day"
  | .week => "week"
  | .month => "month"
  | .year => "year"

def ofLetter? (c : Char) : Option DateUnit :=
  if c = 'h' then some .hour
  else if c = 'd' then some .day
  else if c = 'w' then some .week
  else if c = 'm' then some .month
  else if c = 'y' then some .year
  else none

end DateUnit

namespace RelativeDate

/-- The date in words. -/
def describe : RelativeDate → Text
  | .now => "now"
  | .today => "today"
  | .yesterday => "yesterday"
  | .ago amount unit =>
    Text.ofNat amount.toNat ++ " " ++ unit.name ++ (if amount = 1 then "" else "s") ++ " ago"

/-- An amount and the letter of its unit. -/
def ofAmount? (body : Text) : Option RelativeDate := do
  let letter ← body.getLast?
  let unit ← DateUnit.ofLetter? letter
  let amount ← Text.toNatBelow? UInt32.size body.dropLast
  return .ago (UInt32.ofNat amount) unit

/-- Reads a date token: an at sign and, in either letter case, a keyword or an
amount that fits in 32 bits with the letter of its unit. -/
def ofToken? : Text → Option RelativeDate
  | '@' :: rest =>
    let body := Text.lower rest
    if body = "now" then some .now
    else if body = "today" then some .today
    else if body = "yesterday" then some .yesterday
    else ofAmount? body
  | _ => none

end RelativeDate

end TableBrowser.Filter
