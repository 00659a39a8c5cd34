/-
  LiteratureReview.Text.Counted
  ─────────────────────────────
  Numbers of things in words.
-/

namespace LiteratureReview.Text

/-- "1 element", "3 elements". -/
def counted (n : Nat) (thing : String) : String :=
  toString n ++ " " ++ thing ++ (if n = 1 then "" else "s")

end LiteratureReview.Text
