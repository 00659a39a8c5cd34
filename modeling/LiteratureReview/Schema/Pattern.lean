/-
  LiteratureReview.Schema.Pattern
  ───────────────────────────────
  Patterns for texts: letters and classes of letters, each of them
  repeated or not, between optional anchors at both ends.

  `$` stands for the very end of a text.  Groups and alternatives are not
  among the patterns read here.
-/

namespace LiteratureReview

/-- A set of letters, by ranges that it covers or leaves out. -/
structure LetterClass where
  excluded : Bool
  ranges : List (Char × Char)
  deriving Repr

/-- The letter is in the class. -/
def LetterClass.contains (k : LetterClass) (c : Char) : Bool :=
  k.ranges.any (fun r => r.1 ≤ c && c ≤ r.2) != k.excluded

/-- How often a letter stands. -/
inductive Times where
  | once
  | atMostOnce
  | anyNumber
  | atLeastOnce
  deriving DecidableEq, Repr

/-- A letter class and how often it stands. -/
structure Piece where
  letters : LetterClass
  times : Times
  deriving Repr

/-- A pattern and the text it was read from. -/
structure Pattern where
  source : String
  fromStart : Bool
  pieces : List Piece
  toEnd : Bool
  deriving Repr

namespace Pattern

/-! ## §1. Reading. -/

/-- The letters between brackets, and what follows the closing one. -/
def readRanges : List Char → Option (List (Char × Char) × List Char)
  | ']' :: rest => some ([], rest)
  | a :: '-' :: ']' :: rest => if a = '\\' then none else some ([(a, a), ('-', '-')], rest)
  | a :: '-' :: b :: rest =>
    if a = '\\' || a = '[' || b = '\\' then none
    else (readRanges rest).map fun r => ((a, b) :: r.1, r.2)
  | a :: rest =>
    if a = '\\' || a = '[' then none else (readRanges rest).map fun r => ((a, a) :: r.1, r.2)
  | [] => none

/-- A letter or a class, and what follows it. -/
def readLetters : List Char → Option (LetterClass × List Char)
  | '[' :: '^' :: rest => (readRanges rest).map fun r => (⟨true, r.1⟩, r.2)
  | '[' :: rest => (readRanges rest).map fun r => (⟨false, r.1⟩, r.2)
  | '.' :: rest => some (⟨true, [('\n', '\n'), ('\r', '\r')]⟩, rest)
  | c :: rest =>
    if ['\\', '(', ')', '|', '*', '+', '?', '\x7b', '\x7d', '^', '$', ']'].contains c then none
    else some (⟨false, [(c, c)]⟩, rest)
  | [] => none

/-- How often the letter before stands, and what follows. -/
def readTimes : List Char → Times × List Char
  | '*' :: rest => (.anyNumber, rest)
  | '+' :: rest => (.atLeastOnce, rest)
  | '?' :: rest => (.atMostOnce, rest)
  | rest => (.once, rest)

/-- The pieces up to the end, and whether the end is anchored. -/
def readPieces : Nat → List Char → Option (List Piece × Bool)
  | _, [] => some ([], false)
  | _, ['$'] => some ([], true)
  | 0, _ => none
  | fuel + 1, cs => do
    let (k, rest) ← readLetters cs
    let (n, rest) := readTimes rest
    let (later, toEnd) ← readPieces fuel rest
    return (⟨k, n⟩ :: later, toEnd)

/-- Read a pattern. -/
def ofText (source : String) : Option Pattern :=
  match source.toList with
  | '^' :: rest => (readPieces rest.length rest).map fun r => ⟨source, true, r.1, r.2⟩
  | cs => (readPieces cs.length cs).map fun r => ⟨source, false, r.1, r.2⟩

/-! ## §2. Matching. -/

/-- Any number of letters of a class, and then something else. -/
def repeated (k : LetterClass) (next : List Char → Bool) : List Char → Bool
  | [] => next []
  | c :: rest => next (c :: rest) || (k.contains c && repeated k next rest)

/-- The pieces match from the start of the letters. -/
def matchesHere (toEnd : Bool) : List Piece → List Char → Bool
  | [], cs => !toEnd || cs.isEmpty
  | p :: ps, cs =>
    match p.times, cs with
    | .once, c :: rest => p.letters.contains c && matchesHere toEnd ps rest
    | .once, [] => false
    | .atMostOnce, c :: rest =>
      matchesHere toEnd ps cs || (p.letters.contains c && matchesHere toEnd ps rest)
    | .atMostOnce, [] => matchesHere toEnd ps []
    | .anyNumber, cs => repeated p.letters (matchesHere toEnd ps) cs
    | .atLeastOnce, c :: rest =>
      p.letters.contains c && repeated p.letters (matchesHere toEnd ps) rest
    | .atLeastOnce, [] => false

/-- The pieces match from some letter on. -/
def matchesSomewhere (toEnd : Bool) (ps : List Piece) : List Char → Bool
  | [] => matchesHere toEnd ps []
  | c :: rest => matchesHere toEnd ps (c :: rest) || matchesSomewhere toEnd ps rest

/-- The text matches. -/
def accepts (p : Pattern) (s : String) : Bool :=
  if p.fromStart then matchesHere p.toEnd p.pieces s.toList
  else matchesSomewhere p.toEnd p.pieces s.toList

end Pattern

end LiteratureReview
