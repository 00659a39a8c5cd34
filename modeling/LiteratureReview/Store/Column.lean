/-
  LiteratureReview.Store.Column
  ─────────────────────────────
  Reading typed values out of the columns of a row.

  A text ends at its first NUL.  Where a text may be missing, the empty one
  counts as missing.  Names, times and JSON documents are texts that have to
  be read further.
-/
import LiteratureReview.Json.Shape
import LiteratureReview.Store.Database
import LiteratureReview.Time.Text

namespace LiteratureReview

open Time

/-! ## §1. Reading texts further. -/

namespace DatabaseError

/-- The value of a name in a column. -/
def parseName {α : Type} (table : List (String × α)) (s : String) : Except DatabaseError α :=
  (Decoder.ofName table s).mapError fun e =>
    .query ("Failed to parse enum from '" ++ s ++ "': " ++ e.message)

/-- The instant of a text in a column. -/
def parseInstant (s : String) : Except DatabaseError Instant :=
  (parseStored s).mapError fun e =>
    .query ("Failed to parse datetime '" ++ s ++ "': " ++ e.message)

/-- The instant of a text that may be missing. -/
def parseOptionalInstant : Option String → Except DatabaseError (Option Instant)
  | some s => if s.isEmpty then .ok none else (parseInstant s).map some
  | none => .ok none

/-- The value of a JSON document in a column. -/
def parseDocument {α : Type} (shape : Shape) (d : Decoder α) (s : String) :
    Except DatabaseError α :=
  (readText shape d s).mapError fun e => .query ("Invalid JSON in column: " ++ e.message)

end DatabaseError

/-! ## §2. Columns. -/

namespace Row

/-- The value in a column. -/
def cell (row : Row) (i : Nat) : Cell := row.getD i .null

/-- A text that may be missing. -/
def nullableText (row : Row) (i : Nat) : Except DatabaseError (Option String) :=
  match row.cell i with
  | .text s => .ok (some (Text.untilNul s))
  | .null => .ok none
  | .int _ | .real _ => .error (.engine .wrongValue)

/-- A text. -/
def text (row : Row) (i : Nat) : Except DatabaseError String := do
  match ← row.nullableText i with
  | some s => return s
  | none => throw (.engine .nullValue)

/-- A text that may be missing, the empty one included. -/
def option (row : Row) (i : Nat) : Except DatabaseError (Option String) := do
  match ← row.nullableText i with
  | some s => return if s.isEmpty then none else some s
  | none => return none

/-- An integer. -/
def int (row : Row) (i : Nat) : Except DatabaseError Int :=
  match row.cell i with
  | .int n => .ok n
  | .null => .error (.engine .nullValue)
  | .real _ | .text _ => .error (.engine .wrongValue)

/-- A truth value: an integer other than zero. -/
def flag (row : Row) (i : Nat) : Except DatabaseError Bool := do
  return (← row.int i) != 0

/-- An unsigned integer of thirty-two bits. -/
def u32 (row : Row) (i : Nat) : Except DatabaseError UInt32 := do
  let n ← row.int i
  if 0 ≤ n ∧ n < Decimal.twoTo 32 then return UInt32.ofNat n.toNat
  else throw (.invalidState
    ("column " ++ toString i ++ " out of range: " ++ toString n))

/-- A real. -/
def real (row : Row) (i : Nat) : Except DatabaseError Decimal.Double :=
  match row.cell i with
  | .real x => .ok x
  | .null => .error (.engine .nullValue)
  | .int _ | .text _ => .error (.engine .wrongValue)

/-- A name. -/
def name {α : Type} (table : List (String × α)) (row : Row) (i : Nat) : Except DatabaseError α := do
  DatabaseError.parseName table (← row.text i)

/-- A point in time. -/
def instant (row : Row) (i : Nat) : Except DatabaseError Instant := do
  DatabaseError.parseInstant (← row.text i)

/-- A JSON document. -/
def document {α : Type} (shape : Shape) (d : Decoder α) (row : Row) (i : Nat) :
    Except DatabaseError α := do
  DatabaseError.parseDocument shape d (← row.text i)

end Row

namespace Cell

/-- A truth value. -/
def ofBool (b : Bool) : Cell := .int (if b then 1 else 0)

/-- An unsigned integer of thirty-two bits. -/
def ofU32 (n : UInt32) : Cell := .int n.toNat

/-- A text that may be missing. -/
def ofOption : Option String → Cell
  | some s => .text s
  | none => .null

/-- A point in time. -/
def ofInstant (i : Instant) : Cell := .text i.stored

end Cell

end LiteratureReview
