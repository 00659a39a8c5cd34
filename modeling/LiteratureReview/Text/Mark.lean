/-
  LiteratureReview.Text.Mark
  ──────────────────────────
  The mark U+FEFF that may stand in front of the text of a file.
-/

namespace LiteratureReview.Text

/-- The text of a file without the mark in front. -/
def withoutMark : List Char → List Char
  | [] => []
  | c :: rest => if c.toNat = 0xFEFF then rest else c :: rest

end LiteratureReview.Text
