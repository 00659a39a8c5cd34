/-
  LiteratureReview.Text.Search
  ────────────────────────────
  Finding one text inside another.
-/

namespace LiteratureReview.Text

/-- The letters stand somewhere among the others. -/
def occursIn (needle : List Char) : List Char → Bool
  | [] => needle.isEmpty
  | c :: rest => needle.isPrefixOf (c :: rest) || occursIn needle rest

/-- The one text stands somewhere in the other. -/
def contains (text needle : String) : Bool :=
  occursIn needle.toList text.toList

/-- The text up to its first NUL. -/
def untilNul (s : String) : String :=
  String.ofList (s.toList.takeWhile fun c => c.toNat != 0)

end LiteratureReview.Text
