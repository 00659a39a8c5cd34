/-
  LiteratureReview.Decimal.Power
  ──────────────────────────────
  The powers that numbers are measured with.
-/

namespace LiteratureReview.Decimal

/-- A power of two. -/
def twoTo (n : Nat) : Nat := Nat.pow 2 n

/-- A power of ten. -/
def tenTo (n : Nat) : Nat := Nat.pow 10 n

end LiteratureReview.Decimal
