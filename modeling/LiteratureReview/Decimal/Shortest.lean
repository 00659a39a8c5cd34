/-
  LiteratureReview.Decimal.Shortest
  ─────────────────────────────────
  The fewest decimal digits that read back as the same double.

  The doubles next to x bound an interval of reals that round to x, its ends
  included when the significand is even.  For one digit, two digits and so
  on the two decimals of that many digits next to x are tried against the
  interval; the first length with a hit wins, and of two hits the nearer.
-/
import LiteratureReview.Decimal.Double

namespace LiteratureReview.Decimal

/-- A positive decimal: digits · 10^exponent. -/
structure Digits where
  digits : Nat
  exponent : Int
  deriving DecidableEq, Repr

/-- The reals that round to a double, as integers over a common denominator. -/
structure Rounding where
  low : Nat
  mid : Nat
  high : Nat
  unit : Nat
  closed : Bool

namespace Rounding

/-- The interval of a finite double other than zero. -/
def ofDouble (x : Double) : Rounding :=
  let m := x.significand
  let below := if x.fractionField = 0 && 1 < x.exponentField then 1 else 2
  let q := x.power - 2
  let up := twoTo q.toNat
  { low := (4 * m - below) * up
    mid := 4 * m * up
    high := (4 * m + 2) * up
    unit := twoTo (-q).toNat
    closed := m % 2 == 0 }

/-- `c · 10^t` lies in the interval. -/
def holds (r : Rounding) (c : Nat) (t : Int) : Bool :=
  let value := c * tenTo t.toNat * r.unit
  let scale := tenTo (-t).toNat
  if r.closed then r.low * scale ≤ value && value ≤ r.high * scale
  else r.low * scale < value && value < r.high * scale

/-- The power of ten of the leading digit of `num / den`. -/
def leadingPower (num den : Nat) : Int :=
  let guess : Int := (((num.log2 : Int) - den.log2 - 1) * 30103) / 100000 - 1
  climb 4 guess
where
  reaches (k : Int) : Bool := den * tenTo k.toNat ≤ num * tenTo (-k).toNat
  climb : Nat → Int → Int
    | 0, k => k
    | n + 1, k => if reaches (k + 1) then climb n (k + 1) else k

/-- The better of the two decimals with last place `10^t` around the middle. -/
def nearest (r : Rounding) (t : Int) : Option Digits :=
  let num := r.mid * tenTo (-t).toNat
  let den := r.unit * tenTo t.toNat
  let c := num / den
  let upper := decide (den < 2 * (num % den)) || (2 * (num % den) == den && c % 2 == 1)
  match r.holds c t, r.holds (c + 1) t with
  | true, true => some ⟨if upper then c + 1 else c, t⟩
  | true, false => some ⟨c, t⟩
  | false, true => some ⟨c + 1, t⟩
  | false, false => none

end Rounding

/-- The shortest decimal that reads back as a finite double other than zero,
sign apart. -/
def shortest (x : Double) : Digits :=
  let r := Rounding.ofDouble x
  let lead := Rounding.leadingPower r.mid r.unit
  (search r lead 17 0).getD ⟨x.significand, 0⟩
where
  search (r : Rounding) (lead : Int) : Nat → Nat → Option Digits
    | 0, _ => none
    | n + 1, places => (r.nearest (lead - places)).or (search r lead n (places + 1))

end LiteratureReview.Decimal
