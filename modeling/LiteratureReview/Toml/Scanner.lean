/-
  LiteratureReview.Toml.Scanner
  ─────────────────────────────
  Readers of letters, and what stands between the parts of a document:
  blanks, line ends and comments.
-/

namespace LiteratureReview.Toml

/-! ## §1. Readers. -/

/-- A reader takes letters off the front and answers with what they say;
nothing if they are not of its form. -/
abbrev Scanner (α : Type) := StateT (List Char) Option α

namespace Scanner

/-- The next letter, which stays where it is. -/
def peek : Scanner (Option Char) := do
  return (← get).head?

/-- Letters that have to come next. -/
def word (letters : List Char) : Scanner Unit := fun cs =>
  if letters.isPrefixOf cs then some ((), cs.drop letters.length) else none

/-- A letter that has to come next. -/
def letter (c : Char) : Scanner Unit := word [c]

/-- Take a letter if it comes next. -/
def skipIf (c : Char) : Scanner Bool := fun cs =>
  if cs.head? = some c then some (true, cs.drop 1) else some (false, cs)

/-- Letters of a class, as many as there are. -/
def takeWhile (p : Char → Bool) : Scanner (List Char) := fun cs =>
  some (cs.takeWhile p, cs.dropWhile p)

/-- Letters of a class, exactly so many. -/
def takeExactly (count : Nat) (p : Char → Bool) : Scanner (List Char) := fun cs =>
  let taken := cs.take count
  if taken.length = count && taken.all p then some (taken, cs.drop count) else none

/-- The letters that a reader takes. -/
def written {α : Type} (r : Scanner α) : Scanner (List Char) := fun cs =>
  (r cs).map fun done => (cs.take (cs.length - done.2.length), done.2)

end Scanner

/-! ## §2. Between the parts. -/

open Scanner

/-- Blanks within a line. -/
def isGap (c : Char) : Bool := c = ' ' || c = '\t'

/-- Letters that may stand as they are: everything but controls, the tab
excepted. -/
def isPlain (c : Char) : Bool := c = '\t' || (32 ≤ c.toNat && c.toNat ≠ 127)

/-- Pass over the blanks. -/
def gap : Scanner Unit := do
  let _ ← Scanner.takeWhile isGap

/-- The end of a line that is followed by another. -/
def newline : Scanner Unit := word ['\n'] <|> word ['\r', '\n']

/-- The end of a line, or of the document. -/
def lineEnd : Scanner Unit := do
  match ← peek with
  | none => return ()
  | some _ => newline

/-- A comment. -/
def comment : Scanner Unit := do
  letter '#'
  let _ ← Scanner.takeWhile isPlain

/-- What may follow on a line that is done with. -/
def lineRest : Scanner Unit := do
  gap
  if (← peek) = some '#' then comment
  lineEnd

/-- Blanks, line ends and comments between the elements of an array; a
comment has to end before the document does. -/
def between : Nat → Scanner Unit
  | 0 => failure
  | fuel + 1 => do
    gap
    match ← peek with
    | some '#' => do
      comment
      newline
      between fuel
    | some '\n' | some '\r' => do
      newline
      between fuel
    | _ => return ()

end LiteratureReview.Toml
