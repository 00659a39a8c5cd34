/-
  LiteratureReview.Toml.Document
  ──────────────────────────────
  Reading a document: lines with a key and its value, and headers that say
  which table the lines below them belong to.
-/
import LiteratureReview.Text.Mark
import LiteratureReview.Toml.Date
import LiteratureReview.Toml.Number
import LiteratureReview.Toml.Tables

namespace LiteratureReview.Toml

open Scanner

/-! ## §1. Keys. -/

/-- How deep arrays and tables within lines may be nested, and how many parts
a key may have, is below this. -/
def levelLimit : Nat := 80

/-- The letters of a key without quotes. -/
def isKeyLetter (c : Char) : Bool := c.isAlphanum || c = '_' || c = '-'

/-- A part of a key, with the blanks around it. -/
def keyPart : Scanner String := do
  gap
  let name ← lineText <|> do
    let letters ← Scanner.takeWhile isKeyLetter
    if letters.isEmpty then failure
    return String.ofList letters
  gap
  return name

/-- The parts of a key behind the first. -/
def moreParts : Nat → Scanner (List String)
  | 0 => failure
  | room + 1 => do
    if ← skipIf '.' then
      let name ← keyPart
      return name :: (← moreParts room)
    return []

/-- A key, a list of names with points between them. -/
def key : Scanner (List String) := do
  let name ← keyPart
  return name :: (← moreParts (levelLimit - 1))

/-! ## §2. Values. -/

/-- A value that is neither an array nor a table. -/
def plainValue : Scanner Value :=
  .text <$> text
    <|> (do word "true".toList; return .bool true)
    <|> (do word "false".toList; return .bool false)
    <|> .date <$> date
    <|> .float <$> decimalFloat
    <|> .integer <$> integer
    <|> .float <$> namedFloat

mutual

/-- A value; `room` is how much deeper it may be nested. -/
def value : Nat → Nat → Scanner Value
  | 0, _ => failure
  | fuel + 1, room => do
    match ← peek with
    | some '[' =>
      letter '['
      match room with
      | room + 1 => return .array (← elements fuel room)
      | 0 => failure
    | some '\x7b' =>
      letter '\x7b'
      match room with
      | room + 1 => return .table (Members.toValues (← inlineMembers fuel room))
      | 0 => failure
    | _ => plainValue

/-- The elements of an array up to its closing bracket. -/
def elements : Nat → Nat → Scanner (List Value)
  | 0, _ => failure
  | fuel + 1, room => do
    between fuel
    if ← skipIf ']' then return []
    let v ← value fuel room
    between fuel
    if ← skipIf ',' then return v :: (← elements fuel room)
    letter ']'
    return [v]

/-- The members of a table within a line, up to its closing brace. -/
def inlineMembers : Nat → Nat → Scanner Members
  | 0, _ => failure
  | fuel + 1, room => do
    gap
    if ← skipIf '\x7d' then return []
    laterMembers fuel room []

/-- Members up to the closing brace, added to those before. -/
def laterMembers : Nat → Nat → Members → Scanner Members
  | 0, _, _ => failure
  | fuel + 1, room, done => do
    let path ← key
    letter '='
    gap
    let v ← value fuel room
    gap
    match done.insert true v path with
    | none => failure
    | some done =>
      if ← skipIf ',' then laterMembers fuel room done
      else
        letter '\x7d'
        return done

end

/-! ## §3. Lines. -/

/-- A document that is being read: its tables, and the header that the next
lines belong to. -/
structure Draft where
  root : Members := []
  header : List String := []

/-- A change that has to be possible. -/
def Draft.withRoot (d : Draft) (root : Option Members) : Scanner Draft :=
  match root with
  | some root => return { d with root }
  | none => failure

/-- The header of a table. -/
def tableHeader (d : Draft) : Scanner Draft := do
  letter '['
  let path ← key
  letter ']'
  lineRest
  let name := path.getLast?.getD ""
  { d with header := path }.withRoot (d.root.under (Members.openTable name) path.dropLast)

/-- The header of a table in an array of tables. -/
def elementHeader (d : Draft) : Scanner Draft := do
  word ['[', '[']
  let path ← key
  word [']', ']']
  lineRest
  let name := path.getLast?.getD ""
  { d with header := path }.withRoot (d.root.under (Members.openElement name) path.dropLast)

/-- A key and its value. -/
def keyLine (fuel : Nat) (d : Draft) : Scanner Draft := do
  let path ← key
  letter '='
  gap
  let v ← value fuel (levelLimit - 1)
  lineRest
  d.withRoot (d.root.under (Members.insert true v path) d.header)

/-- Lines up to the end of the document. -/
def lines : Nat → Draft → Scanner Draft
  | 0, _ => failure
  | fuel + 1, d => do
    gap
    match ← peek with
    | none => return d
    | some '#' =>
      lineRest
      lines fuel d
    | some '\n' | some '\r' =>
      newline
      lines fuel d
    | some '[' =>
      let twice := (← get).take 2 = ['[', '[']
      lines fuel (← if twice then elementHeader d else tableHeader d)
    | some _ => lines fuel (← keyLine fuel d)

/-- The members of a document; nothing if it is not one. -/
def parse (s : String) : Option (List (String × Value)) :=
  let cs := Text.withoutMark s.toList
  ((lines (2 * cs.length + 2) {}).run' cs).map fun d => Members.toValues d.root

end LiteratureReview.Toml
