/-
  LiteratureReview.Store.Cell
  ───────────────────────────
  The values a table keeps, and how a column turns a value into one of its
  own kind.

  A column of texts writes numbers out; a column of integers or reals reads
  texts that are numbers.  What cannot be turned stays as it is.  A real
  column keeps no negative zero.
-/
import LiteratureReview.Decimal.Notation

namespace LiteratureReview

open Decimal

/-- A value in a table. -/
inductive Cell where
  | null
  | int (value : Int)
  | real (value : Double)
  | text (value : String)
  deriving DecidableEq, Repr, Inhabited

/-- What a column prefers its values to be. -/
inductive Affinity where
  | text
  | integer
  | real
  deriving DecidableEq, Repr

namespace Cell

/-! ## §1. Reals as texts. -/

/-- The fifteen leading digits of a real other than zero, without the zeros
at their end, and the power of ten of the first. -/
def leadingDigits (x : Double) : List Char × Int :=
  let d := shortest x
  let written := Nat.toDigits 10 d.digits
  let lead := d.exponent + (written.length - 1 : Nat)
  if written.length ≤ 15 then (dropEndZeros written, lead)
  else
    let t := lead - 14
    let n := Double.roundHalfEven (x.numerator.natAbs * tenTo (-t).toNat)
      (x.denominator * tenTo t.toNat)
    let rounded := Nat.toDigits 10 n
    (dropEndZeros rounded, t + (rounded.length - 1 : Nat))

/-- A real written out with at most fifteen digits, and a point always. -/
def realText (x : Double) : String :=
  if x.isZero then "0.0"
  else
    let sign := if x.isNegative then "-" else ""
    let (digits, lead) := leadingDigits x
    if -4 ≤ lead ∧ lead ≤ 14 then sign ++ placePoint true digits lead
    else
      let fraction := if digits.length ≤ 1 then ['0'] else digits.drop 1
      let power := toString lead.natAbs
      sign ++ String.ofList (digits.take 1 ++ '.' :: fraction)
        ++ (if lead < 0 then "e-" else "e+") ++ (if power.length < 2 then "0" ++ power else power)

/-! ## §2. Texts as numbers. -/

/-- The blanks that may stand around a number. -/
def isNumberBlank (c : Char) : Bool :=
  c = ' ' || (9 ≤ c.toNat && c.toNat ≤ 13)

/-- The digits in front, and what follows them. -/
def spanDigits (cs : List Char) : List Char × List Char :=
  cs.span Char.isDigit

/-- The number that digits stand for. -/
def digitsValue (digits : List Char) : Nat :=
  digits.foldl (fun n c => 10 * n + (c.toNat - 48)) 0

/-- A sign in front, and what follows it. -/
def signOf : List Char → Bool × List Char
  | '-' :: rest => (true, rest)
  | '+' :: rest => (false, rest)
  | rest => (false, rest)

/-- The power of ten behind a number; nothing when something else follows. -/
def exponentOf : List Char → Option Int
  | [] => some 0
  | e :: rest =>
    if e = 'e' || e = 'E' then
      let (negative, rest) := signOf rest
      let (digits, rest) := spanDigits rest
      if digits.isEmpty || !rest.isEmpty then none
      else some (if negative then -(digitsValue digits : Int) else digitsValue digits)
    else none

/-- The number a text stands for. -/
def numberOf (s : String) : Option Cell :=
  let cs := ((s.toList.dropWhile isNumberBlank).reverse.dropWhile isNumberBlank).reverse
  let (negative, cs) := signOf cs
  let (whole, rest) := spanDigits cs
  let (fraction, after) := match rest with
    | '.' :: more => spanDigits more
    | more => ([], more)
  if whole.isEmpty && fraction.isEmpty then none
  else if rest.isEmpty then
    let n : Int := if negative then -(digitsValue whole : Int) else digitsValue whole
    if -(twoTo 63 : Int) ≤ n ∧ n < twoTo 63 then some (.int n)
    else (Double.ofDecimal negative (digitsValue whole) 0).map .real
  else do
    let power ← exponentOf after
    let x ← Double.ofDecimal negative (digitsValue (whole ++ fraction)) (power - fraction.length)
    return .real x

/-! ## §3. Columns. -/

/-- A real that is an integer of sixty-four bits, as one. -/
def integral (x : Double) : Cell :=
  let n := x.numerator / x.denominator
  if x.isInteger && -(twoTo 63 : Int) < n && n < twoTo 63 - 1 then .int n else .real x

/-- A number in a column of integers. -/
def asInteger : Cell → Cell
  | .real x => integral x
  | c => c

/-- A number in a column of reals. -/
def asReal : Cell → Cell
  | .int i => .real (Double.ofInt i).unsignedZero
  | .real x => .real x.unsignedZero
  | c => c

/-- What a column keeps of a value. -/
def convert : Affinity → Cell → Cell
  | _, .null => .null
  | .text, .int i => .text (toString i)
  | .text, .real x => .text (realText x)
  | .text, .text s => .text s
  | .integer, .text s => asInteger ((numberOf s).getD (.text s))
  | .integer, c => asInteger c
  | .real, .text s => asReal ((numberOf s).getD (.text s))
  | .real, c => asReal c

/-! ## §4. Order. -/

/-- Nothing before numbers, numbers before texts. -/
def rank : Cell → Nat
  | .null => 0
  | .int _ | .real _ => 1
  | .text _ => 2

/-- The numerator of a number, over `denominator`. -/
def numerator : Cell → Int
  | .int i => i
  | .real x => x.numerator
  | .null | .text _ => 0

/-- The denominator of a number. -/
def denominator : Cell → Nat
  | .real x => x.denominator
  | .null | .int _ | .text _ => 1

/-- The order in which values are listed. -/
def le : Cell → Cell → Bool
  | .text s, .text t => s ≤ t
  | a, b =>
    if a.rank = b.rank then a.numerator * b.denominator ≤ b.numerator * a.denominator
    else a.rank ≤ b.rank

/-- The values are equal; nothing equals nothing. -/
def agrees : Cell → Cell → Bool
  | .text s, .text t => s == t
  | .null, _ | _, .null | .text _, _ | _, .text _ => false
  | a, b => a.numerator * b.denominator = b.numerator * a.denominator

end Cell

end LiteratureReview
