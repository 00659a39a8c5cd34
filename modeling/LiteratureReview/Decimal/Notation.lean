/-
  LiteratureReview.Decimal.Notation
  ─────────────────────────────────
  Layouts for the shortest digits of a double.

  Which digits are written is settled by `shortest`; a `Layout` says where
  the point goes, when an exponent is written instead, and whether a whole
  number keeps a `.0`.
-/
import LiteratureReview.Decimal.Shortest

namespace LiteratureReview.Decimal

/-- The decisions of a float format. -/
structure Layout where
  /-- Powers of ten of the leading digit that are written without an exponent. -/
  plain : Int → Bool
  /-- A whole number ends in `.0`. -/
  pointZero : Bool

/-- JSON: plain from 10^-5 to below 10^16, whole numbers with a `.0`, else an
exponent with its sign. -/
def Layout.json : Layout := ⟨fun e => -5 ≤ e && e ≤ 15, true⟩

/-- Messages about settings: always plain, whole numbers bare. -/
def Layout.positional : Layout := ⟨fun _ => true, false⟩

/-- Digits with the point after the first `lead + 1` of them. -/
def placePoint (pointZero : Bool) (digits : List Char) (lead : Int) : String :=
  let whole := lead + 1
  if whole ≤ 0 then
    "0." ++ String.ofList (List.replicate (-whole).toNat '0' ++ digits)
  else if digits.length ≤ whole.toNat then
    String.ofList (digits ++ List.replicate (whole.toNat - digits.length) '0')
      ++ (if pointZero then ".0" else "")
  else
    String.ofList (digits.take whole.toNat) ++ "." ++ String.ofList (digits.drop whole.toNat)

/-- Digits with one before the point, and the power of ten after an `e`. -/
def placeExponent (digits : List Char) (lead : Int) : String :=
  let point := match digits with
    | d :: e :: rest => String.ofList (d :: '.' :: e :: rest)
    | ds => String.ofList ds
  point ++ "e" ++ (if lead < 0 then "-" else "+") ++ toString lead.natAbs

/-- Digits without the zeros at their end. -/
def dropEndZeros (digits : List Char) : List Char :=
  (digits.reverse.dropWhile (· == '0')).reverse

/-- A double in a layout. -/
def Double.render (layout : Layout) (x : Double) : String :=
  let sign := if x.isNegative then "-" else ""
  if !x.isFinite then
    if x.fractionField = 0 then sign ++ "inf" else "NaN"
  else if x.isZero then sign ++ (if layout.pointZero then "0.0" else "0")
  else
    let d := shortest x
    let written := Nat.toDigits 10 d.digits
    let lead := d.exponent + (written.length - 1 : Nat)
    let digits := dropEndZeros written
    if layout.plain lead then sign ++ placePoint layout.pointZero digits lead
    else sign ++ placeExponent digits lead

end LiteratureReview.Decimal
