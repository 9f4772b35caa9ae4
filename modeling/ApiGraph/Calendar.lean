/-! Days and moments of the Gregorian calendar, and their text. -/

namespace ApiGraph

/-- A day. -/
structure Date where
  year : Nat
  month : Nat
  day : Nat
deriving DecidableEq

/-- A time of a day, with the minutes that its zone is ahead if it has a zone. -/
structure Moment where
  date : Date
  hour : Nat
  minute : Nat
  second : Nat
  micro : Nat
  offset : Option Int
deriving DecidableEq

namespace Date

/-- Whether a year has a day in addition. -/
def isLeap (year : Nat) : Bool := year % 4 = 0 && (year % 100 != 0 || year % 400 = 0)

/-- The number of days of a month. -/
def daysIn (year month : Nat) : Nat :=
  if month = 2 then if isLeap year then 29 else 28
  else if [4, 6, 9, 11].contains month then 30
  else 31

/-- The day with these numbers, if there is one. -/
def make? (year month day : Nat) : Option Date :=
  if 1 ≤ year && year ≤ 9999 && 1 ≤ month && month ≤ 12 && 1 ≤ day && day ≤ daysIn year month then
    some ⟨year, month, day⟩
  else none

/-- The number of days before a day, counted from the first of year one. -/
def ordinal (d : Date) : Nat :=
  let y := d.year - 1
  let months := (List.range' 1 (d.month - 1)).map (daysIn d.year)
  y * 365 + y / 4 - y / 100 + y / 400 + months.foldl (· + ·) 0 + d.day

/-- A number with zeros in front up to a width. -/
def padded (width n : Nat) : String :=
  let ds := Nat.toDigits 10 n
  String.ofList (List.replicate (width - ds.length) '0' ++ ds)

/-- Year, month and day with dashes between them. -/
def text (d : Date) : String := s!"{padded 4 d.year}-{padded 2 d.month}-{padded 2 d.day}"

end Date

namespace Moment

open Date (padded)

/-- The moment with these numbers, if there is one; a zone is less than a day ahead or behind. -/
def make? (date : Date) (hour minute second micro : Nat) (offset : Option Int) : Option Moment :=
  if hour < 24 && minute < 60 && second < 60 && (offset.all fun o => o.natAbs < 1440) then
    some ⟨date, hour, minute, second, micro, offset⟩
  else none

/-- The microseconds before a moment, by the clock of its own zone. -/
def clock (m : Moment) : Int :=
  ((((m.date.ordinal * 24 + m.hour) * 60 + m.minute) * 60 + m.second) * 1000000 + m.micro : Nat)

/-- Whether two moments are the same; one with a zone and one without are not. -/
def same (a b : Moment) : Bool :=
  match a.offset, b.offset with
  | none, none => a.clock == b.clock
  | some o, some p => a.clock - o * 60000000 == b.clock - p * 60000000
  | _, _ => false

/-- The text of a zone. -/
def zoneText (offset : Int) : String :=
  let n := offset.natAbs
  let mark := if offset < 0 then "-" else "+"
  s!"{mark}{padded 2 (n / 60)}:{padded 2 (n % 60)}"

/-- The day and the time of day with a space between them. -/
def text (m : Moment) : String :=
  let fraction := if m.micro = 0 then "" else s!".{padded 6 m.micro}"
  let zone := (m.offset.map zoneText).getD ""
  s!"{m.date.text} {padded 2 m.hour}:{padded 2 m.minute}:{padded 2 m.second}{fraction}{zone}"

end Moment

end ApiGraph
