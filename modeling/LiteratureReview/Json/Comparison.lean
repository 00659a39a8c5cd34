/-
  LiteratureReview.Json.Comparison
  ────────────────────────────────
  Comparing numbers by their values, however they were written: `1` and
  `1.0` are the same number.
-/
import LiteratureReview.Json.Basic

namespace LiteratureReview

open Decimal

namespace Number

/-- The numerator of the value, over `denominator`. -/
def numerator : Number → Int
  | .int i => i
  | .float x => x.numerator

/-- The denominator of the value. -/
def denominator : Number → Nat
  | .int _ => 1
  | .float x => x.denominator

/-- The one value lies below the other. -/
def less (a b : Number) : Bool :=
  a.numerator * b.denominator < b.numerator * a.denominator

/-- The values are equal. -/
def same (a b : Number) : Bool :=
  a.numerator * b.denominator = b.numerator * a.denominator

/-- The value is an integer, also when it was written with a fraction. -/
def isInteger : Number → Bool
  | .int _ => true
  | .float x => x.isInteger

end Number

namespace Json

mutual

/-- Equality up to the way numbers are written. -/
def same : Json → Json → Bool
  | .null, .null => true
  | .bool a, .bool b => a == b
  | .number a, .number b => a.same b
  | .text a, .text b => a == b
  | .list a, .list b => sameItems a b
  | .object a, .object b => sameMembers a b
  | _, _ => false

/-- Equality of elements, one by one. -/
def sameItems : List Json → List Json → Bool
  | [], [] => true
  | v :: rest, w :: rest' => same v w && sameItems rest rest'
  | _, _ => false

/-- Equality of members, one by one. -/
def sameMembers : List (String × Json) → List (String × Json) → Bool
  | [], [] => true
  | (k, v) :: rest, (l, w) :: rest' => k == l && same v w && sameMembers rest rest'
  | _, _ => false

end

end Json

end LiteratureReview
