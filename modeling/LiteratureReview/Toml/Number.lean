/-
  LiteratureReview.Toml.Number
  ────────────────────────────
  Integers and floats.

  Underscores may stand between digits.  Integers have sixty-four bits and a
  sign; floats are rounded to the nearest double, and a positive one beyond
  the finite doubles is refused.
-/
import LiteratureReview.Toml.Text
import LiteratureReview.Toml.Value

namespace LiteratureReview.Toml

open Decimal Scanner

/-! ## §1. Digits. -/

/-- The digits behind a first one, and what follows them. -/
def moreDigits (isDigit : Char → Bool) : List Char → List Char × List Char
  | '_' :: c :: rest =>
    if isDigit c then
      let (digits, after) := moreDigits isDigit rest
      (c :: digits, after)
    else ([], '_' :: c :: rest)
  | c :: rest =>
    if isDigit c then
      let (digits, after) := moreDigits isDigit rest
      (c :: digits, after)
    else ([], c :: rest)
  | [] => ([], [])

/-- Digits, one at least. -/
def digits (isDigit : Char → Bool) : Scanner (List Char)
  | c :: rest =>
    if isDigit c then
      let (more, after) := moreDigits isDigit rest
      some (c :: more, after)
    else none
  | [] => none

/-- The number that digits to a base stand for. -/
def numberOf (base : Nat) (cs : List Char) : Nat :=
  cs.foldl (fun n c => base * n + (hexDigit? c).getD 0) 0

/-- A sign that may be left out: whether it is a minus. -/
def sign : Scanner Bool := do
  if ← skipIf '-' then return true
  let _ ← skipIf '+'
  return false

/-- The digits of a whole number without zeros in front. -/
def wholeDigits : Scanner (List Char) := do
  if ← skipIf '0' then return ['0']
  digits Char.isDigit

/-! ## §2. Integers. -/

/-- The greatest integer. -/
def greatestInteger : Int := twoTo 63 - 1

/-- An integer of sixty-four bits. -/
def bounded (i : Int) : Scanner Int :=
  if -greatestInteger - 1 ≤ i ∧ i ≤ greatestInteger then return i else failure

/-- A digit to base two. -/
def isBinaryDigit (c : Char) : Bool := c = '0' || c = '1'

/-- A digit to base eight. -/
def isOctalDigit (c : Char) : Bool := '0' ≤ c && c ≤ '7'

/-- A digit to base sixteen. -/
def isHexDigit (c : Char) : Bool := (hexDigit? c).isSome

/-- An integer to another base than ten. -/
def basedInteger (marker : List Char) (base : Nat) (isDigit : Char → Bool) : Scanner Int := do
  word marker
  bounded (numberOf base (← digits isDigit))

/-- An integer to base ten. -/
def decimalInteger : Scanner Int := do
  let negative ← sign
  let n : Int := numberOf 10 (← wholeDigits)
  bounded (if negative then -n else n)

/-- An integer. -/
def integer : Scanner Int :=
  basedInteger ['0', 'x'] 16 isHexDigit
    <|> basedInteger ['0', 'o'] 8 isOctalDigit
    <|> basedInteger ['0', 'b'] 2 isBinaryDigit
    <|> decimalInteger

/-! ## §3. Floats. -/

/-- The digits behind the point. -/
def fraction : Scanner (List Char) := do
  letter '.'
  digits Char.isDigit

/-- The power of ten behind an `e`. -/
def power : Scanner Int := do
  letter 'e' <|> letter 'E'
  let negative ← sign
  let n : Int := numberOf 10 (← digits Char.isDigit)
  return if negative then -n else n

/-- The infinite double of a sign. -/
def infinite (negative : Bool) : Double := Double.ofParts negative (2047 * twoTo 52)

/-- The double that is not a number. -/
def notANumber : Double := Double.ofParts false (2047 * twoTo 52 + twoTo 51)

/-- A float with digits. -/
def decimalFloat : Scanner Double := do
  let negative ← sign
  let whole ← wholeDigits
  let (places, e) ← (do
      let places ← fraction
      let e ← power <|> pure 0
      return (places, e))
    <|> (do return ([], ← power))
  match Double.ofDecimal negative (numberOf 10 (whole ++ places)) (e - places.length) with
  | some x => return x
  | none => if negative then return infinite true else failure

/-- A float by its name. -/
def namedFloat : Scanner Double := do
  let negative ← sign
  (do word ['i', 'n', 'f']; return infinite negative)
    <|> (do word ['n', 'a', 'n']; return notANumber)

end LiteratureReview.Toml
