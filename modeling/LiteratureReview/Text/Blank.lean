/-
  LiteratureReview.Text.Blank
  ───────────────────────────
  White space, and text with the white space cut off its ends.

  The class is Unicode's `White_Space`, twenty-five code points, so that a
  setting made of no-break spaces counts as empty while a zero-width space
  does not.
-/

namespace LiteratureReview.Text

/-- The `White_Space` code points, as closed ranges in ascending order. -/
def blanks : List (Nat × Nat) :=
  [(0x9, 0xD), (0x20, 0x20), (0x85, 0x85), (0xA0, 0xA0), (0x1680, 0x1680), (0x2000, 0x200A),
   (0x2028, 0x2029), (0x202F, 0x202F), (0x205F, 0x205F), (0x3000, 0x3000)]

/-- Membership of a code point in a list of closed ranges. -/
def inRanges (ranges : List (Nat × Nat)) (n : Nat) : Bool :=
  ranges.any fun r => r.1 ≤ n && n ≤ r.2

/-- White space. -/
def isBlank (c : Char) : Bool :=
  inRanges blanks c.toNat

/-- Drop white space at the front. -/
def trimFront (cs : List Char) : List Char :=
  cs.dropWhile isBlank

/-- Drop white space at both ends. -/
def trimChars (cs : List Char) : List Char :=
  (trimFront (trimFront cs).reverse).reverse

/-- A text without the white space at its ends. -/
def trim (s : String) : String :=
  String.ofList (trimChars s.toList)

/-- Nothing but white space. -/
def isBlankText (s : String) : Bool :=
  s.toList.all isBlank

end LiteratureReview.Text
