/-
  ProfileMigration.Time.Instant

  Points in universal time and their RFC 3339 text:

    Instant             -- seconds from the start of 1970, and nanoseconds
    daysOfDate / dateOfDays -- the proleptic Gregorian calendar, counted in days
    Instant.ofText?     -- reads a time with any offset, blanks between parts allowed
    Instant.text        -- writes it in universal time, with 0, 3, 6 or 9 places

  A leap second is the last second of its minute with a second's worth of extra nanoseconds.

  `collected_at` of a `CollectedTree` is such a point.
-/
import ProfileMigration.Numeric.Decimal
import ProfileMigration.Text.Blank

namespace ProfileMigration

/-- A point in universal time. -/
structure Instant where
  /-- Seconds from the start of 1970. -/
  seconds : Int
  /-- Nanoseconds, past a thousand million in a leap second. -/
  nanos : Nat
deriving DecidableEq, Repr

namespace Time

/-! ## The calendar -/

/-- A calendar date. -/
structure Date where
  year : Int
  month : Nat
  day : Nat
deriving DecidableEq, Repr

/-- Whether a year has a twenty-ninth of February. -/
def isLeap (year : Int) : Bool := year % 4 = 0 ∧ (year % 100 ≠ 0 ∨ year % 400 = 0)

/-- The length of a month. -/
def daysInMonth (year : Int) (month : Nat) : Nat :=
  if month = 2 then (if isLeap year then 29 else 28)
  else if month = 4 ∨ month = 6 ∨ month = 9 ∨ month = 11 then 30
  else 31

/-- The years that dates are kept for. -/
def yearInRange (year : Int) : Bool := decide (-262143 ≤ year ∧ year ≤ 262142)

/-- A date of the calendar. -/
def Date.isValid (d : Date) : Bool :=
  yearInRange d.year && decide (1 ≤ d.month ∧ d.month ≤ 12) &&
    decide (1 ≤ d.day ∧ d.day ≤ daysInMonth d.year d.month)

/-- Days from the first of January 1970. Years are counted from March, so that the day a leap
    year adds comes last. -/
def daysOfDate (d : Date) : Int :=
  let year := if d.month ≤ 2 then d.year - 1 else d.year
  -- An era of four hundred years has 146097 days; 719468 lie between its start in year 0 and 1970
  let era := year / 400
  let yearOfEra := year - era * 400
  let month : Int := if d.month ≤ 2 then (d.month : Int) + 9 else (d.month : Int) - 3
  let dayOfYear := (153 * month + 2) / 5 + ((d.day : Int) - 1)
  let dayOfEra := yearOfEra * 365 + yearOfEra / 4 - yearOfEra / 100 + dayOfYear
  era * 146097 + dayOfEra - 719468

/-- The date a number of days from the first of January 1970. -/
def dateOfDays (days : Int) : Date :=
  let shifted := days + 719468
  let era := shifted / 146097
  let dayOfEra := shifted - era * 146097
  let yearOfEra := (dayOfEra - dayOfEra / 1460 + dayOfEra / 36524 - dayOfEra / 146096) / 365
  let dayOfYear := dayOfEra - (365 * yearOfEra + yearOfEra / 4 - yearOfEra / 100)
  let month := (5 * dayOfYear + 2) / 153
  let day := dayOfYear - (153 * month + 2) / 5 + 1
  let civilMonth := if month < 10 then month + 3 else month - 9
  let year := yearOfEra + era * 400 + (if civilMonth ≤ 2 then 1 else 0)
  ⟨year, civilMonth.toNat, day.toNat⟩

/-! ## Reading -/

/-- One to `most` digits at the head of a text. -/
def number? (most : Nat) (cs : List Char) : Option (Nat × List Char) :=
  let digits := (cs.take most).takeWhile Char.isDigit
  if digits = [] then none else some (Decimal.digitsValue digits, cs.drop digits.length)

/-- Blanks, then one to `most` digits. -/
def item? (most : Nat) (cs : List Char) : Option (Nat × List Char) :=
  number? most (Text.trimStart cs)

/-- Blanks, then a year: up to four digits, or any number of them behind a sign. -/
def year? (cs : List Char) : Option (Int × List Char) :=
  match Text.trimStart cs with
  | '-' :: rest => (number? rest.length rest).map fun (n, more) => (-(n : Int), more)
  | '+' :: rest => (number? rest.length rest).map fun (n, more) => ((n : Int), more)
  | rest => (number? 4 rest).map fun (n, more) => ((n : Int), more)

/-- Blanks, then a given character. -/
def mark? (c : Char) (cs : List Char) : Option (List Char) :=
  match Text.trimStart cs with
  | d :: rest => if d = c then some rest else none
  | [] => none

/-- Nanoseconds from the places behind a point; places after the ninth are dropped. -/
def fraction? : List Char → Option (Nat × List Char)
  | '.' :: cs => do
    let (n, rest) ← number? 9 cs
    let places := cs.length - rest.length
    return (n * Nat.pow 10 (9 - places), rest.dropWhile Char.isDigit)
  | cs => some (0, cs)

/-- Two digits, the first at most a bound. -/
def pair? (bound : Nat) : List Char → Option (Nat × List Char)
  | a :: b :: rest =>
    if a.isDigit ∧ b.isDigit ∧ a.toNat - '0'.toNat ≤ bound then
      some (10 * (a.toNat - '0'.toNat) + (b.toNat - '0'.toNat), rest)
    else none
  | _ => none

/-- An offset from universal time in seconds: `Z`, `UTC`, or a sign with hours and minutes. -/
def offset? (cs : List Char) : Option (Int × List Char) :=
  if (cs.take 3).map Char.toLower = ['u', 't', 'c'] then some (0, cs.drop 3)
  else match cs with
    | [] => none
    | c :: rest =>
      if c = 'Z' ∨ c = 'z' then some (0, rest)
      else if c = '+' ∨ c = '-' ∨ c = '−' then do
        let (hours, rest) ← pair? 9 rest
        let (minutes, rest) ← pair? 5 (rest.dropWhile fun d => d == ':' || Text.isBlank d)
        let seconds : Int := hours * 3600 + minutes * 60
        if seconds < 86400 then some (if c = '+' then seconds else -seconds, rest) else none
      else none

end Time

namespace Instant

open Time

/-- The instant of a date and a time of day at an offset from universal time; second sixty is
    a leap second. -/
def ofCivil? (date : Date) (hour minute second nanos : Nat) (offset : Int) : Option Instant :=
  if date.isValid ∧ hour ≤ 23 ∧ minute ≤ 59 ∧ second ≤ 60 then
    let (second, extra) := if second = 60 then (59, 1000000000) else (second, 0)
    let seconds := daysOfDate date * 86400 + ((hour * 60 + minute) * 60 + second : Nat) - offset
    if yearInRange (dateOfDays (seconds / 86400)).year then some ⟨seconds, nanos + extra⟩ else none
  else none

/-- Reads a date, a separator, a time of day and an offset. -/
def ofText? (s : String) : Option Instant := do
  let (year, cs) ← year? s.toList
  let (month, cs) ← item? 2 (← mark? '-' cs)
  let (day, cs) ← item? 2 (← mark? '-' cs)
  let cs ← match cs with
    | c :: rest => if c = 'T' ∨ c = 't' ∨ c = ' ' then some rest else none
    | [] => none
  let (hour, cs) ← item? 2 cs
  let (minute, cs) ← item? 2 (← mark? ':' cs)
  let (second, cs) ← item? 2 (← mark? ':' cs)
  let (nanos, cs) ← fraction? cs
  let (offset, cs) ← offset? (Text.trimStart cs)
  if Text.trimStart cs = [] then ofCivil? ⟨year, month, day⟩ hour minute second nanos offset
  else none

/-! ## Writing -/

/-- A number with at least so many digits. -/
def zeroPadded (width n : Nat) : String :=
  let digits := Nat.toDigits 10 n
  String.ofList (List.replicate (width - digits.length) '0' ++ digits)

/-- A year: four digits, and a sign when it is negative or has more. -/
def yearText (year : Int) : String :=
  if year < 0 then "-" ++ zeroPadded 4 year.natAbs
  else if 9999 < year then "+" ++ zeroPadded 4 year.natAbs
  else zeroPadded 4 year.natAbs

/-- The places of a second: none, or the fewest of 3, 6 and 9 that lose nothing. -/
def placesText (nanos : Nat) : String :=
  if nanos = 0 then ""
  else if nanos % 1000000 = 0 then "." ++ zeroPadded 3 (nanos / 1000000)
  else if nanos % 1000 = 0 then "." ++ zeroPadded 6 (nanos / 1000)
  else "." ++ zeroPadded 9 nanos

/-- The text in universal time. -/
def text (t : Instant) : String :=
  let date := dateOfDays (t.seconds / 86400)
  let clock := (t.seconds % 86400).toNat
  let second := clock % 60 + t.nanos / 1000000000
  yearText date.year ++ "-" ++ zeroPadded 2 date.month ++ "-" ++ zeroPadded 2 date.day ++ "T" ++
    zeroPadded 2 (clock / 3600) ++ ":" ++ zeroPadded 2 (clock / 60 % 60) ++ ":" ++
    zeroPadded 2 second ++ placesText (t.nanos % 1000000000) ++ "Z"

end Instant

end ProfileMigration
