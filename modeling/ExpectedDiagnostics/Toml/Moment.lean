import ExpectedDiagnostics.Data
import ExpectedDiagnostics.Decimal.Nearest

/-!
# Days and times of a TOML document

A day, a time, or a day with a time, which may tell the distance of its clock from the standard
time. All numbers have a fixed number of digits, and a day must be one of the calendar.
-/

namespace ExpectedDiagnostics.Toml

/-- Reads a number of two digits that is not too large. -/
def twoDigits? (limit : Nat) : List Char → Option (Nat × List Char)
  | a :: b :: cs =>
    let n := Decimal.ofDigits [a, b]
    if Decimal.isDigit a && Decimal.isDigit b && n ≤ limit then some (n, cs) else none
  | _ => none

/-- Reads a number of two digits that is neither zero nor too large. -/
def twoDigitsFromOne? (limit : Nat) (cs : List Char) : Option (Nat × List Char) := do
  let (n, cs) ← twoDigits? limit cs
  if n == 0 then none else return (n, cs)

/-- Skips a character. -/
def skip? (c : Char) : List Char → Option (List Char)
  | d :: cs => if c == d then some cs else none
  | [] => none

/-- Reads a year, a month and a day, which need not be one of the calendar. -/
def dayNumbers? : List Char → Option (Day × List Char)
  | a :: b :: c :: d :: cs => do
    if !([a, b, c, d].all Decimal.isDigit) then none
    let cs ← skip? '-' cs
    let (month, cs) ← twoDigitsFromOne? 12 cs
    let cs ← skip? '-' cs
    let (day, cs) ← twoDigitsFromOne? 31 cs
    return (⟨Decimal.ofDigits [a, b, c, d], month, day⟩, cs)
  | _ => none

/-- Tells whether a year has a leap day. -/
def isLeapYear (year : Nat) : Bool :=
  year % 4 == 0 && (year % 100 != 0 || year % 400 == 0)

/-- The number of days of a month. -/
def monthLength (year month : Nat) : Nat :=
  if month == 2 then if isLeapYear year then 29 else 28
  else if [4, 6, 9, 11].contains month then 30
  else 31

/-- Tells whether a day is one of the calendar, which begins with the year one. -/
def isCalendarDay (d : Day) : Bool :=
  1 ≤ d.year && 1 ≤ d.month && d.month ≤ 12 && 1 ≤ d.day && d.day ≤ monthLength d.year d.month

/-- Reads a part of a second. Only its first six digits count. -/
def microseconds : List Char → Nat × List Char
  | '.' :: cs =>
    match cs.takeWhile Decimal.isDigit with
    | [] => (0, '.' :: cs)
    | ds =>
      let six := ds.take 6
      (Decimal.ofDigits (six ++ List.replicate (6 - six.length) '0'), cs.drop ds.length)
  | cs => (0, cs)

/-- Reads a time. -/
def clock? (cs : List Char) : Option (Clock × List Char) := do
  let (hour, cs) ← twoDigits? 23 cs
  let cs ← skip? ':' cs
  let (minute, cs) ← twoDigits? 59 cs
  let cs ← skip? ':' cs
  let (second, cs) ← twoDigits? 59 cs
  let (micro, cs) := microseconds cs
  return (⟨hour, minute, second, micro⟩, cs)

/-- Reads the minutes by which a clock is ahead. -/
def minutes? (sign : Int) (cs : List Char) : Option (Int × List Char) := do
  let (hours, cs) ← twoDigits? 23 cs
  let cs ← skip? ':' cs
  let (minutes, cs) ← twoDigits? 59 cs
  return (sign * (60 * hours + minutes), cs)

/-- Reads the distance of a clock from the standard time, if there is one. -/
def offset (cs : List Char) : Option Int × List Char :=
  let read := match cs with
    | 'Z' :: cs | 'z' :: cs => some (0, cs)
    | '+' :: cs => minutes? 1 cs
    | '-' :: cs => minutes? (-1) cs
    | _ => none
  match read with
  | some (minutes, rest) => (some minutes, rest)
  | none => (none, cs)

/-- Reads what separates a day from a time, and the time. -/
def clockAfterDay? : List Char → Option (Clock × List Char)
  | c :: cs => if c == 'T' || c == 't' || c == ' ' then clock? cs else none
  | [] => none

/-- Reads a day, a time or both. Nothing is read if the text does not begin with one; a day that is
not one of the calendar is an error, told by `some none`. -/
def moment? (cs : List Char) : Option (Option (Moment × List Char)) :=
  match dayNumbers? cs with
  | some (d, rest) =>
    if !isCalendarDay d then some none
    else
      match clockAfterDay? rest with
      | none => some (some (.day d, rest))
      | some (c, rest) =>
        let (minutes, rest) := offset rest
        some (some (.dayAndClock d c minutes, rest))
  | none => (clock? cs).map fun (c, rest) => some (.clock c, rest)

end ExpectedDiagnostics.Toml
