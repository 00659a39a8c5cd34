/-
  LiteratureReview.Time.Text
  ──────────────────────────
  Instants as text.

  They are written by RFC 3339 in UTC, the fraction in three, six or nine
  digits.  Three grammars are read: RFC 3339 to the letter, RFC 3339 with
  blanks between the parts, and the `YYYY-MM-DD HH:MM:SS` of SQL, which
  takes UTC for granted and is generous about digits and blanks.
-/
import LiteratureReview.Decimal.Power
import LiteratureReview.Time.Calendar
import LiteratureReview.Text.Blank

namespace LiteratureReview.Time

open Decimal LiteratureReview.Text

/-! ## §1. Writing. -/

/-- A number in at least so many digits. -/
def padded (width n : Nat) : String :=
  let digits := Nat.toDigits 10 n
  String.ofList (List.replicate (width - digits.length) '0' ++ digits)

/-- A year: four digits, and with a sign when it lies outside 0 to 9999. -/
def writeYear (year : Int) : String :=
  if 0 ≤ year ∧ year ≤ 9999 then padded 4 year.toNat
  else (if year < 0 then "-" else "+") ++ padded 4 year.natAbs

/-- A fraction of a second, none when it is zero. -/
def writeFraction (nanos : Nat) : String :=
  if nanos = 0 then ""
  else if nanos % 1000000 = 0 then "." ++ padded 3 (nanos / 1000000)
  else if nanos % 1000 = 0 then "." ++ padded 6 (nanos / 1000)
  else "." ++ padded 9 nanos

/-- An instant in UTC, with the given mark for UTC. -/
def write (zone : String) (i : Instant) : String :=
  let t := i.toDateTime
  writeYear t.date.year ++ "-" ++ padded 2 t.date.month ++ "-" ++ padded 2 t.date.day
    ++ "T" ++ padded 2 t.hour ++ ":" ++ padded 2 t.minute ++ ":" ++ padded 2 t.second
    ++ writeFraction t.nanos ++ zone

/-- The text that is stored. -/
def Instant.stored (i : Instant) : String := write "+00:00" i

/-- The text inside JSON. -/
def Instant.json (i : Instant) : String := write "Z" i

/-! ## §2. Parts of a text. -/

/-- Why a text is no time. -/
inductive TimeError where
  | tooShort
  | invalid
  | outOfRange
  | tooLong
  deriving DecidableEq, Repr

/-- The wording of an error. -/
def TimeError.message : TimeError → String
  | .tooShort => "premature end of input"
  | .invalid => "input contains invalid characters"
  | .outOfRange => "input is out of range"
  | .tooLong => "trailing input"

/-- Reading from the front of a text. -/
abbrev Part (α : Type) := List Char → Except TimeError (α × List Char)

/-- One given character. -/
def char (x : Char) : Part Unit
  | y :: rest => if x = y then .ok ((), rest) else .error .invalid
  | [] => .error .tooShort

/-- At least one of the digits, at most `most` of them. -/
def takeDigits (least most : Nat) : Part (List Char) := fun cs =>
  let digits := (cs.take most).takeWhile Char.isDigit
  if digits.length < least then
    if (String.ofList cs).utf8ByteSize < least then .error .tooShort else .error .invalid
  else .ok (digits, cs.drop digits.length)

/-- The number some digits spell. -/
def digitsValue (digits : List Char) : Nat :=
  digits.foldl (fun n d => n * 10 + (d.toNat - 48)) 0

/-- A number of `least` to `most` digits; a number beyond sixty-three bits is out
of range. -/
def number (least most : Nat) : Part Nat := fun cs => do
  let (digits, rest) ← takeDigits least most cs
  let n := digitsValue digits
  if twoTo 63 ≤ n then throw .outOfRange
  return (n, rest)

/-- A number that has to lie in a range. -/
def numberIn (least most low high : Nat) : Part Nat := fun cs => do
  let (n, rest) ← number least most cs
  if n < low ∨ high < n then throw .outOfRange
  return (n, rest)

/-- A fraction of a second, in nanoseconds; digits behind the ninth are passed
over. -/
def fraction : Part Nat
  | '.' :: cs => do
    let (digits, rest) ← takeDigits 1 9 cs
    return (digitsValue digits * tenTo (9 - digits.length), rest.dropWhile Char.isDigit)
  | cs => .ok (0, cs)

/-- The sign of an offset; the typographic minus counts. -/
def offsetSign : Part Int
  | '+' :: rest => .ok (1, rest)
  | '-' :: rest => .ok (-1, rest)
  | '−' :: rest => .ok (-1, rest)
  | _ :: _ => .error .invalid
  | [] => .error .tooShort

/-- Two digits in a row, which have to be there. -/
def twoDigits : Part Nat := fun cs =>
  if (String.ofList cs).utf8ByteSize < 2 then .error .tooShort
  else match cs with
    | a :: b :: rest =>
      if a.isDigit && b.isDigit then .ok (digitsValue [a, b], rest) else .error .invalid
    | _ => .error .invalid

/-- An offset from UTC in seconds, `between` standing between hours and minutes. -/
def offset (between : Part Unit) : Part Int
  | 'Z' :: rest => .ok (0, rest)
  | 'z' :: rest => .ok (0, rest)
  | cs => do
    let (sign, cs) ← offsetSign cs
    let (hours, cs) ← twoDigits cs
    let (_, cs) ← between cs
    let (minutes, cs) ← twoDigits cs
    if 59 < minutes then throw .outOfRange
    return (sign * (hours * 3600 + minutes * 60 : Nat), cs)

/-- The instant of the parts of a text. -/
def assemble (t : DateTime) (offset : Int) : Except TimeError Instant :=
  if t.date.isValid ∧ -86400 < offset ∧ offset < 86400 then
    let i := t.toInstant offset
    let year := (Date.ofDays (i.seconds.fdiv 86400)).year
    if -yearLimit ≤ year ∧ year ≤ yearLimit - 1 then .ok i else .error .outOfRange
  else .error .outOfRange

/-! ## §3. The grammars. -/

/-- The letter or blank between date and time. -/
def dateTimeGap : Part Unit
  | 'T' :: rest | 't' :: rest | ' ' :: rest => .ok ((), rest)
  | _ :: _ => .error .invalid
  | [] => .error .tooShort

/-- RFC 3339, every part in its full width. -/
def parseStrict (s : String) : Except TimeError Instant := do
  let (year, cs) ← number 4 4 s.toList
  let (_, cs) ← char '-' cs
  let (month, cs) ← numberIn 2 2 1 12 cs
  let (_, cs) ← char '-' cs
  let (day, cs) ← numberIn 2 2 1 31 cs
  let (_, cs) ← dateTimeGap cs
  let (hour, cs) ← numberIn 2 2 0 23 cs
  let (_, cs) ← char ':' cs
  let (minute, cs) ← numberIn 2 2 0 59 cs
  let (_, cs) ← char ':' cs
  let (second, cs) ← numberIn 2 2 0 60 cs
  let (nanos, cs) ← fraction cs
  let (offset, cs) ← offset (char ':') cs
  if !cs.isEmpty then throw .tooLong
  assemble ⟨⟨year, month, day⟩, hour, minute, second, nanos⟩ offset

/-- A year: four digits at most, or any number of them behind a sign. -/
def year : Part Int := fun cs =>
  match trimFront cs with
  | '-' :: rest => do
    let (n, rest) ← number 1 rest.length.succ rest
    bounded (-n) rest
  | '+' :: rest => do
    let (n, rest) ← number 1 rest.length.succ rest
    bounded n rest
  | cs => do
    let (n, rest) ← number 1 4 cs
    return (n, rest)
where
  bounded (n : Int) (rest : List Char) : Except TimeError (Int × List Char) :=
    if n < -(twoTo 31 : Int) ∨ twoTo 31 ≤ n then .error .outOfRange else .ok (n, rest)

/-- A number of one or two digits after blanks. -/
def shortNumber (low high : Nat) : Part Nat := fun cs =>
  numberIn 1 2 low high (trimFront cs)

/-- Blanks, then one given character. -/
def spacedChar (x : Char) : Part Unit := fun cs => char x (trimFront cs)

/-- Colons and blanks, any number of them. -/
def colonsOrBlanks : Part Unit := fun cs =>
  .ok ((), cs.dropWhile fun c => c == ':' || isBlank c)

/-- `UTC`, in any case, or an offset. -/
def namedOffset : Part Int := fun cs =>
  match cs with
  | u :: t :: c :: rest =>
    if [u, t, c].map Char.toUpper = ['U', 'T', 'C'] then .ok (0, rest)
    else offset colonsOrBlanks cs
  | cs => offset colonsOrBlanks cs

/-- RFC 3339 with blanks between the parts and short numbers. -/
def parseRelaxed (s : String) : Except TimeError Instant := do
  let (year, cs) ← year s.toList
  let (_, cs) ← spacedChar '-' cs
  let (month, cs) ← shortNumber 1 12 cs
  let (_, cs) ← spacedChar '-' cs
  let (day, cs) ← shortNumber 1 31 cs
  let (_, cs) ← dateTimeGap cs
  let (hour, cs) ← shortNumber 0 23 cs
  let (_, cs) ← spacedChar ':' cs
  let (minute, cs) ← shortNumber 0 59 cs
  let (_, cs) ← spacedChar ':' cs
  let (second, cs) ← shortNumber 0 60 cs
  let (nanos, cs) ← fraction cs
  let (offset, cs) ← namedOffset (trimFront cs)
  if !(trimFront cs).isEmpty then throw .tooLong
  assemble ⟨⟨year, month, day⟩, hour, minute, second, nanos⟩ offset

/-- The date and time of SQL, in UTC. -/
def parseSql (s : String) : Except TimeError Instant := do
  let (year, cs) ← year s.toList
  let (_, cs) ← char '-' cs
  let (month, cs) ← shortNumber 1 12 cs
  let (_, cs) ← char '-' cs
  let (day, cs) ← shortNumber 1 31 cs
  let (hour, cs) ← shortNumber 0 23 cs
  let (_, cs) ← char ':' cs
  let (minute, cs) ← shortNumber 0 59 cs
  let (_, cs) ← char ':' cs
  let (second, cs) ← shortNumber 0 60 cs
  if !cs.isEmpty then throw .tooLong
  assemble ⟨⟨year, month, day⟩, hour, minute, second, 0⟩ 0

/-- The instant of a stored text: RFC 3339, or else SQL, whose complaint is the
one that is made. -/
def parseStored (s : String) : Except TimeError Instant :=
  match parseStrict s with
  | .ok i => .ok i
  | .error _ => parseSql s

end LiteratureReview.Time
