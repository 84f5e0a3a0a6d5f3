/-
Dates as answers carry them: the day of the week, the day, the month's name, the year and the time of day, always in
Greenwich time and of a fixed width.
-/
namespace EventServer.Http.Date

structure Day where
  year : Nat
  month : Nat
  day : Nat
  deriving DecidableEq, Repr

/-- days from the first of March of year 0 to the first of January 1970 -/
def epochShift : Nat := 719468

/-- the day that is so many days after the first of January 1970; years are counted from March, so that a leap day is
a year's last -/
def dayOf (days : Nat) : Day :=
  let shifted := days + epochShift
  let cycle := shifted / 146097
  let inCycle := shifted % 146097
  let year := (inCycle - inCycle / 1460 + inCycle / 36524 - inCycle / 146096) / 365
  let inYear := inCycle - (365 * year + year / 4 - year / 100)
  let month := (5 * inYear + 2) / 153
  let day := inYear - (153 * month + 2) / 5 + 1
  if month < 10 then ⟨400 * cycle + year, month + 3, day⟩ else ⟨400 * cycle + year + 1, month - 9, day⟩

def weekdayNames : List String := ["Thu", "Fri", "Sat", "Sun", "Mon", "Tue", "Wed"]

def monthNames : List String :=
  ["Jan", "Feb", "Mar", "Apr", "May", "Jun", "Jul", "Aug", "Sep", "Oct", "Nov", "Dec"]

/-- a number with zeros in front of it up to the width -/
def padded (width n : Nat) : String :=
  let digits := toString n
  String.ofList (List.replicate (width - digits.length) '0') ++ digits

def text (seconds : Nat) : String :=
  let days := seconds / 86400
  let day := dayOf days
  let clock := seconds % 86400
  weekdayNames.getD (days % 7) "" ++ ", " ++ padded 2 day.day ++ " " ++ monthNames.getD (day.month - 1) "" ++ " " ++
    padded 4 day.year ++ " " ++ padded 2 (clock / 3600) ++ ":" ++ padded 2 (clock / 60 % 60) ++ ":" ++
    padded 2 (clock % 60) ++ " GMT"

end EventServer.Http.Date
