/-
  LiteratureReview.Toml.Date
  ──────────────────────────
  Dates and times as they may be written: a date, a time, or both, and after
  both the distance to universal time.
-/
import LiteratureReview.Time.Calendar
import LiteratureReview.Toml.Scanner

namespace LiteratureReview.Toml

open Scanner

/-- A number of exactly so many digits within bounds. -/
def fixedNumber (count least greatest : Nat) : Scanner Nat := do
  let n := (← takeExactly count Char.isDigit).foldl (fun n c => 10 * n + (c.toNat - 48)) 0
  if least ≤ n ∧ n ≤ greatest then return n else failure

/-- A day of the calendar. -/
def day : Scanner Unit := do
  let year ← fixedNumber 4 0 9999
  letter '-'
  let month ← fixedNumber 2 1 12
  letter '-'
  let _ ← fixedNumber 2 1 (Time.daysInMonth year month)

/-- Digits of a second, one at least. -/
def secondFraction : Scanner Unit := do
  letter '.'
  if (← Scanner.takeWhile Char.isDigit).isEmpty then failure

/-- A time of day. -/
def timeOfDay : Scanner Unit := do
  let _ ← fixedNumber 2 0 23
  letter ':'
  let _ ← fixedNumber 2 0 59
  letter ':'
  let _ ← fixedNumber 2 0 60
  secondFraction <|> return ()

/-- The distance to universal time. -/
def offset : Scanner Unit :=
  letter 'Z' <|> letter 'z' <|> do
    letter '+' <|> letter '-'
    let _ ← fixedNumber 2 0 23
    letter ':'
    let _ ← fixedNumber 2 0 59

/-- What may stand behind a date: a time, and its distance to universal time. -/
def timeOfDate : Scanner Unit := do
  letter 'T' <|> letter 't' <|> letter ' '
  timeOfDay
  offset <|> return ()

/-- A date with or without a time, or a time. -/
def date : Scanner String := do
  let taken ← written ((do day; timeOfDate <|> return ()) <|> timeOfDay)
  return String.ofList taken

end LiteratureReview.Toml
