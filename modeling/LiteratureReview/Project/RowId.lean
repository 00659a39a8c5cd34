/-
  LiteratureReview.Project.RowId
  ──────────────────────────────
  Ids of rows: a code for the kind of row, a dash, and sixteen hexadecimal
  digits of a random word.
-/
import LiteratureReview.Project.Codes
import LiteratureReview.Text.Quoted

namespace LiteratureReview

/-- The code in front of the ids of a kind of row. -/
def EntityType.code : EntityType → String
  | .project => "prj"
  | .projectMember => "mbr"
  | .projectConfig => "cfg"
  | .exclusionCriterion => "exc"
  | .screeningPhase => "phs"
  | .qaTemplate => "qat"
  | .qaQuestion => "qaq"
  | .qaOption => "qao"
  | .extractionForm => "frm"
  | .extractionField => "fld"

/-- The sixteen hexadecimal digits of a word. -/
def wordDigits (word : UInt64) : String :=
  let digits := Text.hex word.toNat
  String.ofList (List.replicate (16 - digits.length) '0') ++ digits

/-- An id with a code in front. -/
def rowId (code : String) (word : UInt64) : String :=
  code ++ "-" ++ wordDigits word

/-- The id of a row of some kind. -/
def EntityType.rowId (entity : EntityType) (word : UInt64) : String :=
  LiteratureReview.rowId entity.code word

end LiteratureReview
