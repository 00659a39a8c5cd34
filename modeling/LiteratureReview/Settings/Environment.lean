/-
  LiteratureReview.Settings.Environment
  ─────────────────────────────────────
  Settings out of environment variables.

  The name of a variable is `SIFT_` and the keys that lead to the setting,
  two underscores between them.  Its value is read loosely: truth values,
  numbers, quoted texts, lists in brackets and tables in braces are what
  they look like, and everything else is a text without the blanks around
  it.  A value that only starts like one of these is a text as it stands.
-/
import LiteratureReview.Settings.Tree
import LiteratureReview.Text.Blank
import LiteratureReview.Toml.Text

namespace LiteratureReview.Environment

open Decimal
open Toml (isGap quotedFrom)

/-- Variables and their values. -/
abbrev Variables := List (String × String)

/-! ## §1. Scalars. -/

/-- What follows the blanks in front. -/
def skipGap (cs : List Char) : List Char := cs.dropWhile isGap

/-- Letters that end a plain value. -/
def isSeparator (c : Char) : Bool :=
  [',', '[', ']', '\x7b', '\x7d'].contains c

/-- The digits of a number, all of them. -/
def digitsOnly (cs : List Char) : Option Nat :=
  if !cs.isEmpty && cs.all Char.isDigit then
    some (cs.foldl (fun n c => 10 * n + (c.toNat - 48)) 0)
  else none

/-- A natural number of sixty-four bits. -/
def unsignedOf (cs : List Char) : Option Nat := do
  let n ← digitsOnly (match cs with
    | '+' :: rest => rest
    | rest => rest)
  if n < twoTo 64 then some n else none

/-- An integer of sixty-four bits that is not positive. -/
def negativeOf : List Char → Option Int
  | '-' :: rest => do
    let n ← digitsOnly rest
    if n ≤ twoTo 63 then some (-(n : Int)) else none
  | _ => none

/-- The power of ten behind the digits of a decimal. -/
def powerOf : List Char → Option Int
  | [] => some 0
  | e :: rest =>
    if e = 'e' || e = 'E' then
      match rest with
      | '-' :: digits => (digitsOnly digits).map fun n => -(n : Int)
      | '+' :: digits => (digitsOnly digits).map fun n => (n : Int)
      | digits => (digitsOnly digits).map fun n => (n : Int)
    else none

/-- A decimal with a point, to the nearest double; one too great is infinite. -/
def decimalOf (cs : List Char) : Option Double := do
  let (negative, cs) := match cs with
    | '-' :: rest => (true, rest)
    | '+' :: rest => (false, rest)
    | rest => (false, rest)
  let (whole, rest) := cs.span Char.isDigit
  let (fraction, after) ← match rest with
    | '.' :: more => some (more.span Char.isDigit)
    | _ => none
  let digits ← digitsOnly (whole ++ fraction)
  let power ← powerOf after
  return (Double.ofDecimal negative digits (power - fraction.length)).getD
    (Double.ofParts negative (2047 * twoTo 52))

/-- A plain value. -/
def plain (cs : List Char) : Scalar :=
  let s := Text.trim (String.ofList cs)
  let cs := s.toList
  match decimalOf cs with
  | some x => .float x
  | none =>
    match unsignedOf cs, negativeOf cs with
    | some n, _ => .unsigned n
    | none, some i => .signed i
    | none, none => .text s

/-! ## §2. Lists and tables. -/

/-- The letters of a key without quotes. -/
def isKeyLetter (c : Char) : Bool := c.isAlphanum || c = '_' || c = '-'

/-- A key, and what follows it. -/
def key : List Char → Option (String × List Char)
  | '"' :: rest => (quotedFrom 0 rest).map fun r => (String.ofList r.1, r.2)
  | cs =>
    let (name, rest) := cs.span isKeyLetter
    if name.isEmpty then none else some (String.ofList name, rest)

/-- A letter that has to come next. -/
def expect (c : Char) : List Char → Option (List Char)
  | d :: rest => if d = c then some rest else none
  | [] => none

mutual

/-- A value, and what follows it and the blanks behind it. -/
def value : Nat → List Char → Option (Tree × List Char)
  | 0, _ => none
  | fuel + 1, cs => do
    let leaf := Tree.leaf .environment
    let (t, rest) ← match skipGap cs with
      | 't' :: 'r' :: 'u' :: 'e' :: rest => some (leaf (.bool true), rest)
      | 'f' :: 'a' :: 'l' :: 's' :: 'e' :: rest => some (leaf (.bool false), rest)
      | '\x7b' :: rest => (members fuel [] rest).map fun r => (.table .environment r.1, r.2)
      | '[' :: rest => (items fuel rest).map fun r => (.list .environment r.1, r.2)
      | '"' :: rest =>
        (quotedFrom 0 rest).map fun r => (leaf (.text (String.ofList r.1)), r.2)
      | '\'' :: rest =>
        match rest with
        | c :: '\'' :: after => some (leaf (.text c.toString), after)
        | _ => none
      | rest =>
        let (letters, after) := rest.span fun c => !isSeparator c
        some (leaf (plain letters), after)
    return (t, skipGap rest)

/-- The elements up to the closing bracket, and what follows it. -/
def items : Nat → List Char → Option (List Tree × List Char)
  | 0, _ => none
  | _ + 1, ']' :: rest => some ([], rest)
  | fuel + 1, cs => do
    let (t, rest) ← value fuel cs
    match rest with
    | ',' :: more => do
      let (later, after) ← items fuel more
      return (t :: later, after)
    | more => return ([t], ← expect ']' more)

/-- The members up to the closing brace, added to those before, and what
follows it. -/
def members : Nat → List (String × Tree) → List Char → Option (List (String × Tree) × List Char)
  | 0, _, _ => none
  | _ + 1, done, '\x7d' :: rest => some (done, rest)
  | fuel + 1, done, cs => do
    let (name, rest) ← key (skipGap cs)
    let (t, rest) ← value fuel (← expect '=' (skipGap rest))
    let done := Tree.put name t done
    match rest with
    | ',' :: more => members fuel done more
    | more => return (done, ← expect '\x7d' more)

end

/-- The value of a variable. -/
def read (s : String) : Tree :=
  match value (2 * s.length + 2) s.toList with
  | some (t, []) => t
  | _ => .leaf .environment (.text s)

/-! ## §3. Variables. -/

/-- The letters in front of every variable that holds a setting. -/
def marker : List Char := ['s', 'i', 'f', 't', '_']

/-- A name cut at its points and at every pair of underscores. -/
def splitName (piece : List Char) : List Char → List (List Char)
  | '_' :: '_' :: rest => piece.reverse :: splitName [] rest
  | '.' :: rest => piece.reverse :: splitName [] rest
  | c :: rest => splitName (c :: piece) rest
  | [] => [piece.reverse]

/-- The keys a variable's name stands for; nothing for other variables and
for names with an empty key. -/
def keysOf (name : String) : Option (List String) :=
  let letters := (Text.trimChars name.toList).map Char.toLower
  if marker.isPrefixOf letters then
    let keys := splitName [] (letters.drop marker.length)
    if keys.any List.isEmpty then none else some (keys.map String.ofList)
  else none

/-- The settings of all variables, later ones over earlier ones. -/
def toTree (vars : Variables) : Tree :=
  vars.foldl (fun t v =>
    match keysOf v.1 with
    | some keys => t.overlay (Tree.nest .environment keys (read v.2))
    | none => t) (.table .environment [])

end LiteratureReview.Environment
