/-
  LiteratureReview.Decimal.Double
  ───────────────────────────────
  Double-precision numbers as their sixty-four bits.

  A finite double is ± m · 2^q.  `Double.ofRatio` rounds a fraction to the
  nearest double, a tie to the even one, in exact arithmetic, so that a
  decimal text is read with a single rounding (`Double.ofDecimal`).
-/
import LiteratureReview.Decimal.Power

namespace LiteratureReview.Decimal

/-- A double, by its bits: a sign, eleven bits of exponent, fifty-two of
fraction. -/
structure Double where
  bits : UInt64
  deriving DecidableEq, Repr, Inhabited, BEq

namespace Double

/-! ## §1. Parts. -/

/-- The sign bit. -/
def isNegative (x : Double) : Bool :=
  twoTo 63 ≤ x.bits.toNat

/-- The bits without the sign; they order the doubles of one sign. -/
def magnitude (x : Double) : Nat :=
  x.bits.toNat % twoTo 63

/-- The eleven bits of exponent. -/
def exponentField (x : Double) : Nat :=
  x.magnitude / twoTo 52

/-- The fifty-two bits of fraction. -/
def fractionField (x : Double) : Nat :=
  x.magnitude % twoTo 52

/-- Neither infinite nor a NaN. -/
def isFinite (x : Double) : Bool :=
  x.exponentField < 2047

/-- The integer `m` of ± m · 2^q. -/
def significand (x : Double) : Nat :=
  if x.exponentField = 0 then x.fractionField else x.fractionField + twoTo 52

/-- The power `q` of ± m · 2^q. -/
def power (x : Double) : Int :=
  if x.exponentField = 0 then -1074 else (x.exponentField : Int) - 1075

/-- Either zero. -/
def isZero (x : Double) : Bool :=
  x.magnitude = 0

/-- Strictly above zero. -/
def isPositive (x : Double) : Bool :=
  !x.isNegative && !x.isZero && x.magnitude ≤ 2047 * twoTo 52

/-- The double of a sign and a magnitude. -/
def ofParts (negative : Bool) (magnitude : Nat) : Double :=
  ⟨UInt64.ofNat (if negative then magnitude + twoTo 63 else magnitude)⟩

/-- Zero without a sign. -/
def zero : Double := ofParts false 0

/-- The value with a negative zero replaced by the plain one. -/
def unsignedZero (x : Double) : Double :=
  if x.isZero then zero else x

/-! ## §2. The value as a fraction. -/

/-- The numerator of a finite double, over `denominator`. -/
def numerator (x : Double) : Int :=
  let m : Int := x.significand * twoTo x.power.toNat
  if x.isNegative then -m else m

/-- The denominator of a finite double, a power of two. -/
def denominator (x : Double) : Nat :=
  twoTo (-x.power).toNat

/-- A finite double without a fractional part. -/
def isInteger (x : Double) : Bool :=
  x.isFinite && x.numerator % x.denominator = 0

/-! ## §3. Rounding a fraction. -/

/-- `num / den` rounded to an integer, a tie to the even one. -/
def roundHalfEven (num den : Nat) : Nat :=
  let q := num / den
  let r := num % den
  if den < 2 * r || (2 * r == den && q % 2 == 1) then q + 1 else q

/-- The power of two of the last place of the doubles around `num / den`. -/
def lastPlace (num den : Nat) : Int :=
  let guess : Int := (num.log2 : Int) - den.log2 - 52
  let scaledUp := if 0 ≤ guess then den * twoTo guess.toNat else den
  let scaledNum := if 0 ≤ guess then num else num * twoTo (-guess).toNat
  let exact := if scaledNum < scaledUp * twoTo 52 then guess - 1 else guess
  max exact (-1074)

/-- The double nearest to ± num / den, or nothing when it lies beyond the
finite ones. -/
def ofRatio (negative : Bool) (num den : Nat) : Option Double :=
  if num = 0 then some (ofParts negative 0)
  else
    let k := lastPlace num den
    let m := if 0 ≤ k then roundHalfEven num (den * twoTo k.toNat)
      else roundHalfEven (num * twoTo (-k).toNat) den
    let magnitude := (k + 1074).toNat * twoTo 52 + m
    if magnitude < 2047 * twoTo 52 then some (ofParts negative magnitude) else none

/-- The double nearest to ± digits · 10^exponent.  Exponents that decide the
answer by themselves are settled first. -/
def ofDecimal (negative : Bool) (digits : Nat) (exponent : Int) : Option Double :=
  if digits = 0 then some (ofParts negative 0)
  else if 400 < exponent then none
  else if exponent < -(400 + digits.log2 : Int) then some (ofParts negative 0)
  else if 0 ≤ exponent then ofRatio negative (digits * tenTo exponent.toNat) 1
  else ofRatio negative digits (tenTo (-exponent).toNat)

/-- The double nearest to an integer. -/
def ofInt (i : Int) : Double :=
  (ofRatio (i < 0) i.natAbs 1).getD zero

end Double

end LiteratureReview.Decimal
