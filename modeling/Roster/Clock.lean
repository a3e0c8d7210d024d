import Roster.Number.Integer

/-!
Times by the clock.

The clock counts seconds from the first moment of the year 2020. A reading is written as a date and a time
of day: with a blank between them in messages, with a fraction after them in the store, and with a letter
between them in documents.
-/

set_option autoImplicit false

namespace Roster.Clock

open Number (padded)

/-- A date of the calendar; months and days are counted from one. -/
structure Date where
  year : Nat
  month : Nat
  day : Nat
  deriving DecidableEq, Repr

/-- The days of a cycle of 400 years. -/
def cycleDays : Nat := 146097

/-- The year, counted from zero, that a day of a cycle belongs to, where years start in March and every
leap day is the last of its year. -/
def yearOfCycle (day : Nat) : Nat :=
  (day - day / 1460 + day / 36524 - day / (cycleDays - 1)) / 365

/-- The date of a day, counted from the first of March 2000. -/
def dateOfDay (n : Nat) : Date :=
  let year := yearOfCycle (n % cycleDays)
  let day := n % cycleDays - (365 * year + year / 4 - year / 100)
  let month := (5 * day + 2) / 153
  let shift := if month < 10 then 0 else 1
  ⟨2000 + 400 * (n / cycleDays) + year + shift, month + 3 - 12 * shift, day - (153 * month + 2) / 5 + 1⟩

/-- The day on which the clock starts, the first of January 2020. -/
def firstDay : Nat := 7245

def daySeconds : Nat := 86400

/-- A date as four, two and two digits. -/
def Date.text (d : Date) : List Char :=
  padded 4 d.year ++ '-' :: padded 2 d.month ++ '-' :: padded 2 d.day

/-- A time of day in seconds as hours, minutes and seconds. -/
def timeText (s : Nat) : List Char :=
  padded 2 (s / 3600) ++ ':' :: padded 2 (s / 60 % 60) ++ ':' :: padded 2 (s % 60)

/-- A reading with a character between its date and its time of day. -/
def reading (separator : Char) (t : Nat) : List Char :=
  (dateOfDay (firstDay + t / daySeconds)).text ++ separator :: timeText (t % daySeconds)

def text (t : Nat) : String :=
  String.ofList (reading ' ' t)

/-- A reading in the store, with the fraction of its second. -/
def storedText (t : Nat) : String :=
  String.ofList (reading ' ' t ++ ".000000".toList)

def documentText (t : Nat) : String :=
  String.ofList (reading 'T' t)

example : dateOfDay firstDay = ⟨2020, 1, 1⟩ := by decide

example : dateOfDay (firstDay + 59) = ⟨2020, 2, 29⟩ := by decide

example : dateOfDay (firstDay + 366) = ⟨2021, 1, 1⟩ := by decide

end Roster.Clock
